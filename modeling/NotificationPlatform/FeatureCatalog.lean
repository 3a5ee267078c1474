import NotificationPlatform.AdminHandlers
import NotificationPlatform.SendAtomicity

/-!
# The feature catalog and the gates of a send

A feature is switched in two places: for every tenant in `tenant_features`, and for all of them in
`feature_catalog`. Provisioning copies from the catalog to a tenant; a `Send` reads the tenant's row
alone.
-/

namespace NotificationPlatform

open Lib

def Stores (cfg : Config) (plan : Site → Outcome) (t : String) (db : Db) (channels : List String)
    (scheduledAt : Option Nat) : Prop :=
  (plan (.send .begin 0)).fail = false ∧ (plan (.send .insertNotification 0)).fail = false ∧
    (if scheduledAt.isSome then (plan (.send .insertScheduledJob 0)).fail = false
      else allServed cfg plan t { db with nextId := db.nextId + 1 } 0 channels = true) ∧
    (plan (.send .commit 0)).fail = false

/-- What a `Send` asks for: an active tenant, open gates, a schedule it can read, and statements
that succeed. -/
def Accepts (cfg : Config) (plan : Site → Outcome) (t : String) (req : Request) (db : Db) : Prop :=
  t ≠ "" ∧ req.channels ≠ [] ∧ activeOpen plan t db = true ∧
    gatesOpen plan t db 0 req.channels = true ∧
    ∃ scheduledAt status, scheduleState cfg req.withDefaultSchedule.schedule =
        .ok (scheduledAt, status) ∧ Stores cfg plan t db req.channels scheduledAt

theorem not_isOk_error {α : Type} {e : Err} {s : Sys} :
    ¬((.error e, s) : Except Err α × Sys).1.isOk = true := by
  simp [Except.isOk, Except.toBool]

section

variable (cfg : Config) (party : Party) (plan : Site → Outcome) (t : String) (s : Sys)

theorem store_isOk (publicID : String) (req : Request) (scheduledAt : Option Nat)
    (status : NotificationStatus) :
    (alone cfg party (fun c => plan c.site)
        (Notifications.store t publicID req scheduledAt status) s).1.isOk = true ↔
      Stores cfg plan t s.db req.channels scheduledAt := by
  rw [Notifications.store]
  cases hbegin : (plan (.send .begin 0)).fail with
  | true =>
      rw [alone_bind_error (alone_call_fail hbegin)]
      simp [Stores, hbegin, Except.isOk, Except.toBool]
  | false =>
  rw [alone_bind_ok (alone_call_ok hbegin rfl)]
  cases hinsert : (plan (.send .insertNotification 0)).fail with
  | true =>
      rw [alone_bind_error (alone_call_fail hinsert)]
      simp [Stores, hinsert, Except.isOk, Except.toBool]
  | false =>
  rw [alone_bind_ok (alone_call_ok hinsert rfl)]
  cases scheduledAt with
  | some dueAt =>
      dsimp only
      rw [alone_bind, fileJob_alone]
      cases hjob : (plan (.send .insertScheduledJob 0)).fail with
      | true => simp [Stores, hjob, Except.isOk, Except.toBool]
      | false =>
          dsimp only [cond]
          rw [commit_alone]
          cases hcommit : (plan (.send .commit 0)).fail <;>
            simp [Stores, hbegin, hinsert, hjob, hcommit, Except.isOk, Except.toBool]
  | none =>
      dsimp only
      obtain ⟨r, s', ms, heq, hsame, hready, hok, hms⟩ := sendChannels_alone cfg party plan t
        { s.fresh with inserted := s.inserted ++
          [(s.db.nextId, Notifications.newNotification t publicID req none status)] }
        s.db.nextId req.target.toJson (jobPayload req.data req.target.recipient) 0 req.channels
        ⟨(s.db.nextId, Notifications.newNotification t publicID req none status), [], none⟩
      have hserved : r.isOk = allServed cfg plan t { s.db with nextId := s.db.nextId + 1 } 0
        req.channels := hok
      cases r with
      | error e =>
          rw [alone_bind_error heq]
          simp [Stores, ← hserved, Except.isOk, Except.toBool]
      | ok tx =>
          rw [alone_bind_ok heq, commit_alone]
          cases hcommit : (plan (.send .commit 0)).fail <;>
            simp [Stores, hbegin, hinsert, hcommit, ← hserved, Except.isOk, Except.toBool]

theorem send_isOk_iff (unixNano : Nat) (req : Request) :
    (sendAlone cfg unixNano t req plan s).1.isOk = true ↔ Accepts cfg plan t req s.db := by
  rw [sendAlone, Notifications.send]
  by_cases ht : t = ""
  · rw [if_pos ht]
    exact iff_of_false not_isOk_error fun h => h.1 ht
  rw [if_neg ht]
  by_cases hchannels : req.channels = []
  · rw [if_pos hchannels]
    exact iff_of_false not_isOk_error fun h => h.2.1 hchannels
  rw [if_neg hchannels]
  dsimp only
  obtain ⟨r, hactive, hr⟩ := ensureActive_alone cfg (.request t req) plan t s
  cases r with
  | error e =>
      have hclosed : activeOpen plan t s.db = false := by simpa using hr
      rw [alone_bind_error hactive]
      simp [Accepts, hclosed, Except.isOk, Except.toBool]
  | ok _ =>
  rw [alone_bind_ok hactive]
  obtain ⟨r', hgates, hr'⟩ := checkChannels_alone cfg (.request t req) plan t s 0
    req.withDefaultSchedule.channels
  rw [Request.withDefaultSchedule_channels] at hgates hr' ⊢
  cases r' with
  | error e =>
      have hclosed : gatesOpen plan t s.db 0 req.channels = false := by simpa using hr'
      rw [alone_bind_error hgates]
      simp [Accepts, hclosed, Except.isOk, Except.toBool]
  | ok _ =>
  rw [alone_bind_ok hgates]
  have hopen := hr'.mp rfl
  have hactive := hr.mp rfl
  cases hstate : scheduleState cfg req.withDefaultSchedule.schedule with
  | error e => exact iff_of_false not_isOk_error fun h => by simp [Accepts, hstate] at h
  | ok p =>
      obtain ⟨scheduledAt, status⟩ := p
      have hstore := store_isOk cfg (.request t req) plan t s ("ntf_" ++ toString unixNano)
        req.withDefaultSchedule scheduledAt status
      rw [Request.withDefaultSchedule_channels] at hstore
      have hiff : Accepts cfg plan t req s.db ↔ Stores cfg plan t s.db req.channels scheduledAt := by
        simp [Accepts, ht, hchannels, hactive, hopen, hstate]
      rw [hiff, ← hstore]
      dsimp only
      rw [alone_bind]
      cases halone : alone cfg (.request t req) (fun c => plan c.site)
          (Notifications.store t ("ntf_" ++ toString unixNano) req.withDefaultSchedule scheduledAt
            status) s with
      | mk r s' => cases r <;> simp [Except.isOk, Except.toBool]

end

/-- The system, and the `feature_catalog` rows: identifiers with their statuses. -/
structure CatalogWorld where
  sys : Sys
  catalog : List (String × String)

/-- Requests that switch features, the statements of a provisioning, and sends. A tenant's feature
row is named by the tenant and the key, which are unique together. -/
inductive CatalogEvent where
  | updateFeatureCatalog (p : Principal) (identifier : String) (enabled : Option Bool)
  | updateFeature (p : Principal) (tenantID key : String) (enabled : Bool)
  | createTenant (tenant : Tenant)
  | provisionFeatures (tenantID : String) (identifiers : List String)
  -- its other statements, and what else an administrator switches
  | admin (a : AdminAction)
  | send (tenantID : String) (req : Request) (plan : Site → Outcome) (unixNano : Nat)

/-- `INSERT INTO tenant_features .. ON CONFLICT DO UPDATE` of one feature. -/
def upsertFeature (features : List TenantFeature) (row : TenantFeature) : List TenantFeature :=
  upsert features (fun f => f.tenantID == row.tenantID && f.featureKey == row.featureKey) row

/-- The features that the provisioning of a tenant copies from the catalog: the active ones, each
enabled when the request lists it. -/
def provisionedFeatures (catalog : List (String × String)) (tenantID : String)
    (identifiers : List String) : List TenantFeature :=
  (catalog.filter fun row => row.2 == "active").map fun row =>
    ⟨tenantID, row.1, identifiers.contains row.1⟩

/-- `UPDATE feature_catalog SET status = $1 WHERE identifier = $2` -/
def setCatalogStatus (catalog : List (String × String)) (identifier status : String) :
    List (String × String) :=
  catalog.map fun row => if row.1 == identifier then (row.1, status) else row

/-- `UPDATE tenant_features SET enabled = $2`, of the row with the key. -/
def setFeatureEnabled (features : List TenantFeature) (tenantID key : String) (enabled : Bool) :
    List TenantFeature :=
  features.map fun f =>
    if f.tenantID == tenantID && f.featureKey == key then { f with enabled := enabled } else f

namespace CatalogWorld

def setDb (w : CatalogWorld) (db : Db) : CatalogWorld := { w with sys := { w.sys with db := db } }

def setFeatures (w : CatalogWorld) (features : List TenantFeature) : CatalogWorld :=
  w.setDb { w.sys.db with features := features }

def step (cfg : Config) (w : CatalogWorld) : CatalogEvent → CatalogWorld
  | .updateFeatureCatalog p identifier enabled =>
      match p.isPlatform, enabled with
      | true, some enabled =>
          { w with catalog :=
            setCatalogStatus w.catalog identifier (if enabled then "active" else "disabled") }
      | _, _ => w
  | .updateFeature p tenantID key enabled =>
      if p.isPlatform || p.tenantID == tenantID then
        w.setFeatures (setFeatureEnabled w.sys.db.features tenantID key enabled)
      else w
  | .createTenant tenant =>
      if w.sys.db.tenants.any fun t => t.id == tenant.id || t.slug == tenant.slug then w
      else w.setDb { w.sys.db with tenants := w.sys.db.tenants ++ [tenant] }
  | .provisionFeatures tenantID identifiers =>
      if w.sys.db.tenants.any fun t => t.id == tenantID then
        w.setFeatures ((provisionedFeatures w.catalog tenantID identifiers).foldl upsertFeature
          w.sys.db.features)
      else w
  | .admin a => w.setDb (w.sys.db.admin a)
  | .send tenantID req plan unixNano =>
      { w with sys := (sendAlone cfg unixNano tenantID req plan w.sys).2 }

def Off (w : CatalogWorld) (key : String) : Prop := (key, "disabled") ∈ w.catalog

/-- No send is accepted for a channel whose feature the catalog has switched off. -/
def Respects (cfg : Config) (w : CatalogWorld) : CatalogEvent → Prop
  | .send tenantID req plan unixNano => (∃ channel ∈ req.channels, w.Off ("channel." ++ channel)) →
      (sendAlone cfg unixNano tenantID req plan w.sys).1.isOk = false
  | _ => True

/-- A send for such a channel fails one of the checks or statements of `Send` itself. -/
def RefusedOtherwise (cfg : Config) (w : CatalogWorld) : CatalogEvent → Prop
  | .send tenantID req plan _ => (∃ channel ∈ req.channels, w.Off ("channel." ++ channel)) →
      ¬Accepts cfg plan tenantID req w.sys.db
  | _ => True

def Unused (w : CatalogWorld) (key : String) : Prop :=
  ∀ f ∈ w.sys.db.features, f.featureKey = key → f.enabled = false

/-- The catalog switches off only what no tenant has on, and no tenant switches on what the catalog
has switched off. -/
def Careful (w : CatalogWorld) : CatalogEvent → Prop
  | .updateFeatureCatalog _ identifier enabled => enabled = some false → w.Unused identifier
  | .updateFeature _ _ key enabled => enabled = true → ¬w.Off key
  | .admin (.feature row) => row.enabled = true → ¬w.Off row.featureKey
  | _ => True

/-- The catalog has each feature once, and no tenant has on what it has switched off. -/
structure Settled (w : CatalogWorld) : Prop where
  unique : (w.catalog.map Prod.fst).Nodup
  unused : ∀ key, w.Off key → w.Unused key

/-- A run of requests, each admitted by `ok` where it is made. -/
def RunOf (cfg : Config) (ok : CatalogWorld → CatalogEvent → Prop) (w : CatalogWorld)
    (es : List CatalogEvent) (w' : CatalogWorld) : Prop :=
  Run (fun w e => some (w.step cfg e)) ok w es w'

variable {cfg : Config} {w w' : CatalogWorld} {es : List CatalogEvent}

theorem respects_iff (w : CatalogWorld) (e : CatalogEvent) :
    w.Respects cfg e ↔ w.RefusedOtherwise cfg e := by
  cases e with
  | updateFeatureCatalog p identifier enabled => exact Iff.rfl
  | updateFeature p tenantID key enabled => exact Iff.rfl
  | createTenant tenant => exact Iff.rfl
  | provisionFeatures tenantID identifiers => exact Iff.rfl
  | admin a => exact Iff.rfl
  | send tenantID req plan unixNano =>
      simp only [Respects, RefusedOtherwise, ← send_isOk_iff cfg plan tenantID w.sys unixNano req,
        Bool.not_eq_true]

theorem mem_setCatalogStatus {catalog : List (String × String)} {identifier status : String}
    {row : String × String} (h : row ∈ setCatalogStatus catalog identifier status) :
    row = (identifier, status) ∨ row ∈ catalog := by
  obtain ⟨old, hold, heq⟩ := List.mem_map.mp h
  split at heq
  · next hid =>
      have hid : old.1 = identifier := by simpa using hid
      exact .inl (by rw [← heq, hid])
  · exact .inr (heq ▸ hold)

theorem setCatalogStatus_keys (catalog : List (String × String)) (identifier status : String) :
    (setCatalogStatus catalog identifier status).map Prod.fst = catalog.map Prod.fst := by
  rw [setCatalogStatus, List.map_map]
  apply List.map_congr_left
  intro row _
  by_cases hid : row.1 = identifier <;> simp [hid]

theorem mem_setFeatureEnabled {features : List TenantFeature} {tenantID key : String}
    {enabled : Bool} {f : TenantFeature} (h : f ∈ setFeatureEnabled features tenantID key enabled) :
    (f.featureKey = key ∧ f.enabled = enabled) ∨ f ∈ features := by
  obtain ⟨old, hold, heq⟩ := List.mem_map.mp h
  split at heq
  · next hrow =>
      have hrow : old.tenantID = tenantID ∧ old.featureKey = key := by simpa using hrow
      exact .inl ⟨by rw [← heq]; exact hrow.2, by rw [← heq]⟩
  · exact .inr (heq ▸ hold)

theorem mem_upsertFeature {features : List TenantFeature} {row f : TenantFeature}
    (h : f ∈ upsertFeature features row) : f = row ∨ f ∈ features := by
  unfold upsertFeature upsert at h
  split at h
  · obtain ⟨old, hold, heq⟩ := List.mem_map.mp h
    split at heq
    · exact .inl heq.symm
    · exact .inr (heq ▸ hold)
  · rcases List.mem_append.mp h with hold | hnew
    · exact .inr hold
    · exact .inl (by simpa using hnew)

theorem mem_foldl_upsertFeature {rows features : List TenantFeature} {f : TenantFeature}
    (h : f ∈ rows.foldl upsertFeature features) : f ∈ rows ∨ f ∈ features := by
  induction rows generalizing features with
  | nil => exact .inr h
  | cons row rows ih =>
      rcases ih h with hrow | hold
      · exact .inl (List.mem_cons_of_mem _ hrow)
      · rcases mem_upsertFeature hold with rfl | hold
        · exact .inl (by simp)
        · exact .inr hold

theorem mem_provisionedFeatures {catalog : List (String × String)} {tenantID : String}
    {identifiers : List String} {f : TenantFeature}
    (h : f ∈ provisionedFeatures catalog tenantID identifiers) :
    (f.featureKey, "active") ∈ catalog := by
  obtain ⟨row, hrow, rfl⟩ := List.mem_map.mp h
  obtain ⟨hmem, hactive⟩ := List.mem_filter.mp hrow
  have hactive : row.2 = "active" := by simpa using hactive
  simpa [← hactive] using hmem

theorem features_of_map {α β : Type} {x : Except Err α} {f : α → β × Sys} {s s' : Sys} {b : β}
    (hkeep : ∀ a, x = .ok a → (f a).2.db.features = s.db.features) (h : x.map f = .ok (b, s')) :
    s'.db.features = s.db.features := by
  cases x with
  | error e => cases h
  | ok a =>
      have heq : f a = (b, s') := Except.ok.inj h
      have hfeatures := hkeep a rfl
      rw [heq] at hfeatures
      exact hfeatures

theorem features_of_updateDelivery {s : Sys} {db : Db} {id : Nat}
    {f : DeliveryRow → Option DeliveryRow} (h : s.db.updateDelivery id f = .ok db) :
    db.features = s.db.features := by
  rcases Db.updateDelivery_cases h with ⟨-, rfl⟩ | ⟨row, row', -, -, rfl⟩ <;> rfl

theorem perform_features {party : Party} {o : Outcome} {s s' : Sys} {st : Stmt} {r : Result st}
    (h : s.perform cfg party o st = .ok (r, s')) : s'.db.features = s.db.features := by
  cases st with
  | selectTenantStatus tenantID => exact features_of_map (fun _ _ => rfl) h
  | selectFeature tenantID key => exact features_of_map (fun _ _ => rfl) h
  | selectChannelConfig tenantID channel => exact features_of_map (fun _ _ => rfl) h
  | ensureControl tenantID channel =>
      apply features_of_map ?_ h
      intro a ha
      obtain ⟨controls, next, hnext, -⟩ := Db.ensureControl_cases ha
      rw [hnext]
  | getControl tenantID channel =>
      apply features_of_map ?_ h
      intro a ha
      obtain ⟨controls, next, hnext, -⟩ := Db.getControl_cases ha
      rw [hnext]
  | markPaused id => exact features_of_map (fun _ ha => features_of_updateDelivery ha) h
  | markBlocked id => exact features_of_map (fun _ ha => features_of_updateDelivery ha) h
  | markSending id => exact features_of_map (fun _ ha => features_of_updateDelivery ha) h
  | storeResult id status messageID response =>
      exact features_of_map (fun _ ha => features_of_updateDelivery ha) h
  | markDead id => exact features_of_map (fun _ ha => features_of_updateDelivery ha) h
  | storeRetryCount id attempt => exact features_of_map (fun _ ha => features_of_updateDelivery ha) h
  | insertAttempt tenantID id status response =>
      apply features_of_map ?_ h
      intro db hdb
      obtain ⟨-, attempts, rfl⟩ := Db.insertAttempt_cases hdb
      rfl
  | selectDue => cases party <;> cases h <;> rfl
  | nack d again =>
      obtain ⟨-, rfl⟩ := Prod.mk.inj (Except.ok.inj h)
      split <;> rfl
  | _ =>
      cases h
      rfl

theorem exec_features (party : Party) (c : Call) (o : Outcome) (s : Sys) :
    (s.exec cfg party c o).2.db.features = s.db.features := by
  unfold Sys.exec
  split
  · unfold Sys.failed
    split <;> rfl
  · split
    · next hperform => exact perform_features hperform
    · rfl

theorem alone_features {α : Type} (party : Party) (plan : Call → Outcome) (p : Go α) (s : Sys) :
    (alone cfg party plan p s).2.db.features = s.db.features := by
  have heval : ∀ (q : Code (Except Err α)) (s : Sys),
      (q.eval (handler cfg party plan) s).2.db.features = s.db.features := by
    intro q
    induction q with
    | ret a => exact fun s => rfl
    | call c k ih =>
        intro s
        rw [Prog.eval_call, ih]
        exact exec_features party c (plan c) s
  exact heval p.run s

theorem Settled.setFeatures (h : w.Settled) {features : List TenantFeature}
    (hfeatures : ∀ f ∈ features, f ∈ w.sys.db.features ∨ f.enabled = false ∨ ¬w.Off f.featureKey) :
    (w.setFeatures features).Settled := by
  refine ⟨h.unique, ?_⟩
  intro key hoff f hf hkey
  have hoff : w.Off key := hoff
  rcases hfeatures f hf with hold | hdisabled | hon
  · exact h.unused key hoff f hold hkey
  · exact hdisabled
  · rw [hkey] at hon
    exact absurd hoff hon

theorem Settled.not_off_of_active (h : w.Settled) {key : String}
    (hactive : (key, "active") ∈ w.catalog) : ¬w.Off key := by
  intro hoff
  have hsame : (key, "active") = (key, "disabled") :=
    List.inj_on_of_nodup_map h.unique hactive hoff rfl
  simp at hsame

theorem Settled.step (h : w.Settled) {e : CatalogEvent} (hcareful : w.Careful e) :
    (w.step cfg e).Settled := by
  cases e with
  | updateFeatureCatalog p identifier enabled =>
      dsimp only [CatalogWorld.step]
      cases hplatform : p.isPlatform with
      | false => exact h
      | true =>
      cases enabled with
      | none => exact h
      | some enabled =>
          refine ⟨?_, ?_⟩
          · have hkeys := h.unique
            rw [← setCatalogStatus_keys] at hkeys
            exact hkeys
          · intro key hoff
            rcases mem_setCatalogStatus hoff with hnew | hold
            · obtain ⟨rfl, hstatus⟩ := Prod.mk.inj hnew
              cases enabled with
              | false => exact hcareful rfl
              | true => simp at hstatus
            · exact h.unused key hold
  | updateFeature p tenantID key enabled =>
      dsimp only [CatalogWorld.step]
      split
      · apply h.setFeatures
        intro f hf
        rcases mem_setFeatureEnabled hf with ⟨hkey, henabled⟩ | hold
        · cases henabled' : enabled with
          | false => exact .inr (.inl (henabled.trans henabled'))
          | true => exact .inr (.inr (hkey ▸ hcareful henabled'))
        · exact .inl hold
      · exact h
  | createTenant tenant =>
      dsimp only [CatalogWorld.step]
      split
      · exact h
      · exact ⟨h.unique, h.unused⟩
  | provisionFeatures tenantID identifiers =>
      dsimp only [CatalogWorld.step]
      split
      · apply h.setFeatures
        intro f hf
        rcases mem_foldl_upsertFeature hf with hnew | hold
        · exact .inr (.inr (h.not_off_of_active (mem_provisionedFeatures hnew)))
        · exact .inl hold
      · exact h
  | admin a =>
      cases a with
      | feature row =>
          apply h.setFeatures
          intro f hf
          rcases mem_upsertFeature hf with rfl | hold
          · cases henabled : f.enabled with
            | false => exact .inr (.inl rfl)
            | true => exact .inr (.inr (hcareful henabled))
          · exact .inl hold
      | _ => exact ⟨h.unique, h.unused⟩
  | send tenantID req plan unixNano =>
      refine ⟨h.unique, ?_⟩
      intro key hoff
      have hunused := h.unused key hoff
      unfold Unused at hunused ⊢
      rw [show (w.step cfg (.send tenantID req plan unixNano)).sys.db.features =
        w.sys.db.features from alone_features _ _ _ _]
      exact hunused

theorem exists_of_featureEnabled {db : Db} {t key : String} {enabled : Bool}
    (h : db.featureEnabled t key = .ok enabled) :
    ∃ f ∈ db.features, f.featureKey = key ∧ f.enabled = enabled := by
  unfold Db.featureEnabled at h
  split at h
  · cases h
  · next f hf =>
      have hfound := List.find?_some hf
      have hkey : f.tenantID = t ∧ f.featureKey = key := by simpa using hfound
      exact ⟨f, List.mem_of_find?_eq_some hf, hkey.2, Except.ok.inj h⟩

theorem enabled_of_gatesOpen {plan : Site → Outcome} {t : String} {db : Db} {i : Nat}
    {channels : List String} (h : gatesOpen plan t db i channels = true) {channel : String}
    (hchannel : channel ∈ channels) :
    ∃ f ∈ db.features, f.featureKey = "channel." ++ channel ∧ f.enabled = true := by
  induction channels generalizing i with
  | nil => simp at hchannel
  | cons c rest ih =>
      rw [gatesOpen, Bool.and_eq_true] at h
      rcases List.mem_cons.mp hchannel with rfl | hrest
      · have hgate := h.1
        simp only [gateOpen, Bool.and_eq_true] at hgate
        obtain ⟨⟨⟨⟨⟨-, henabled⟩, -⟩, -⟩, -⟩, -⟩ := hgate
        cases hfeature : db.featureEnabled t ("channel." ++ channel) with
        | error e => simp [hfeature] at henabled
        | ok enabled =>
            obtain rfl : enabled = true := by simpa [hfeature] using henabled
            exact exists_of_featureEnabled hfeature
      · exact ih h.2 hrest

theorem Settled.respects (h : w.Settled) (e : CatalogEvent) : w.Respects cfg e := by
  cases e with
  | send tenantID req plan unixNano =>
      apply (respects_iff w _).mpr
      rintro ⟨channel, hchannel, hoff⟩ haccepts
      obtain ⟨f, hf, hkey, henabled⟩ := enabled_of_gatesOpen haccepts.2.2.2.1 hchannel
      have hdisabled := h.unused _ hoff f hf hkey
      rw [henabled] at hdisabled
      cases hdisabled
  | _ => trivial

/-- The catalog has no part in a send: a run respects it exactly when every send for a channel that
is switched off would be refused anyway, and this is so in every careful run. -/
theorem catalog_respected_iff :
    (w.RunOf cfg (Respects cfg) es w' ↔ w.RunOf cfg (RefusedOtherwise cfg) es w') ∧
      (w.Settled → w.RunOf cfg Careful es w' → w.RunOf cfg (Respects cfg) es w') := by
  refine ⟨⟨?_, ?_⟩, ?_⟩
  · intro h
    exact Run.mono h fun w e => (respects_iff w e).mp
  · intro h
    exact Run.mono h fun w e => (respects_iff w e).mpr
  · intro hsettled h
    apply Run.mono_of_invariant h hsettled
    · intro s e s' hs hcareful hstep
      cases hstep
      exact hs.step hcareful
    · exact fun s e hs _ => hs.respects e

def sampleCatalog (db : Db) : CatalogWorld :=
  ⟨⟨db, ⟨[], [], 0⟩, [], [], [], []⟩, [("channel.email", "active"), ("channel.sms", "active")]⟩

def switchOffEmail : CatalogEvent :=
  .updateFeatureCatalog ⟨1, "", true, []⟩ "channel.email" (some false)

def sendEmail : CatalogEvent :=
  .send "t1" (sampleRequest ["email"] ⟨"", ""⟩ "") (fun _ => {}) 1

def freshCatalog : CatalogWorld := sampleCatalog { sampleDb with features := [] }

theorem freshCatalog_settled : freshCatalog.Settled where
  unique := by decide
  unused := by
    intro key _ f hf
    simp [freshCatalog, sampleCatalog] at hf

/-- The catalog may be switched before a tenant has the feature. -/
theorem catalog_respected_of_fresh :
    (freshCatalog.RunOf (sampleConfig 3) (Respects (sampleConfig 3)) [switchOffEmail, sendEmail]
        ((freshCatalog.step (sampleConfig 3) switchOffEmail).step (sampleConfig 3) sendEmail) ↔
      freshCatalog.RunOf (sampleConfig 3) (RefusedOtherwise (sampleConfig 3))
        [switchOffEmail, sendEmail]
        ((freshCatalog.step (sampleConfig 3) switchOffEmail).step (sampleConfig 3) sendEmail)) ∧
      freshCatalog.RunOf (sampleConfig 3) (Respects (sampleConfig 3)) [switchOffEmail, sendEmail]
        ((freshCatalog.step (sampleConfig 3) switchOffEmail).step (sampleConfig 3) sendEmail) := by
  refine ⟨catalog_respected_iff.1, catalog_respected_iff.2 freshCatalog_settled ?_⟩
  apply Run.cons _ rfl
  · exact .cons trivial rfl (.nil _)
  · intro _ f hf
    simp [freshCatalog, sampleCatalog] at hf

/-- A tenant that has the channel goes on sending. -/
theorem disabled_feature_sends : ¬∀ (w w' : CatalogWorld) (es : List CatalogEvent),
    w.RunOf (sampleConfig 3) (fun _ _ => True) es w' →
      w.RunOf (sampleConfig 3) (Respects (sampleConfig 3)) es w' := by
  intro h
  have hrun := h (sampleCatalog sampleDb) _ [switchOffEmail, sendEmail]
    (.cons trivial rfl (.cons trivial rfl (.nil _)))
  have hsplit : [switchOffEmail, sendEmail] = [switchOffEmail] ++ sendEmail :: [] := rfl
  obtain ⟨u, u', hbefore, hok, -⟩ := Run.at_event hrun hsplit
  have hfirst : (sampleCatalog sampleDb).RunOf (sampleConfig 3) (fun _ _ => True) [switchOffEmail]
      ((sampleCatalog sampleDb).step (sampleConfig 3) switchOffEmail) :=
    .cons trivial rfl (.nil _)
  obtain rfl := Run.unique hbefore hfirst
  have hrefused := hok ⟨"email", by simp [sampleRequest], by simp [Off]; decide +kernel⟩
  revert hrefused
  decide +kernel

end CatalogWorld

end NotificationPlatform
