import NotificationPlatform.Addressing
import NotificationPlatform.AdminLists
import NotificationPlatform.TenantWrites

/-!
# Tenants read only their own rows

What a list handler answers to a principal of a tenant is a function of the tenant's own rows, its
own row among the tenants, and the platform catalogs. The conditions of the queries see to that
for the rows that are listed; the joins and the subqueries reach further tables by other columns,
and stay within the tenant because a member belongs to the tenant of its group and a delivery to
the tenant of its notification in every reachable database.
-/

namespace NotificationPlatform

open Lib
open Lib.Sql (Row)

/-- The administrative tables are sound, and a delivery has the tenant of its notification. -/
structure Snapshot.Sound (s : Snapshot) : Prop where
  admin : s.admin.Sound
  deliveries : ∀ n notification d row, s.pipeline.notifications.get? n = some notification →
    s.pipeline.deliveries.get? d = some row → row.notificationID = n →
      row.tenantID = notification.tenantID

/-- The tables are those after some requests of any principals and some run of the pipeline; the
times of its rows are any. -/
structure Snapshot.Reachable (cfg : AdminConfig) (config : Config) (s : Snapshot) : Prop where
  admin : s.admin.Reachable cfg
  pipeline : ∃ w₀ es w, World.Fresh w₀ ∧ w₀.RunOf config (fun _ _ => True) es w ∧
    w.sys.db = s.pipeline

theorem Snapshot.Reachable.sound {cfg : AdminConfig} {config : Config} {s : Snapshot}
    (h : s.Reachable cfg config) : s.Sound := by
  refine ⟨h.admin.sound, ?_⟩
  intro n notification d row hn hrow hrown
  obtain ⟨w₀, es, w, hfresh, hrun, hdb⟩ := h.pipeline
  have hK := (traced_inductive config).and
    ((ownedOnce_inductive config).given fun _ _ _ => trivial)
  have hfirst := And.intro (And.intro (traced_fresh hfresh) (ownedOnce_fresh hfresh))
    (addressed_fresh hfresh)
  obtain ⟨ms, -, ⟨htraced, -⟩, book, hb⟩ :=
    (hK.and (addressed_inductive config)).reachable hfresh hrun hfirst
  rw [← hdb] at hn hrow
  obtain ⟨a, -, hat, htenant, -⟩ := hb.submitted htraced hn hrow hrown
  exact hat.1.trans htenant.symm

def ownedTables : List AdminTable := .contactGroupMembers :: .auditLogs :: tenantTables

/-- The databases agree on the rows of the tenant, in the order of their tables, and on the
catalogs of the platform. -/
structure AgreeFor (t : String) (s s' : Snapshot) : Prop where
  owned : ∀ table ∈ ownedTables,
    (s.admin table).filter (belongsTo t table) = (s'.admin table).filter (belongsTo t table)
  featureCatalog : s.admin .featureCatalog = s'.admin .featureCatalog
  platformChannels : s.admin .platformChannels = s'.admin .platformChannels
  notifications :
    s.notifications.filter (ofTenant (.text t)) = s'.notifications.filter (ofTenant (.text t))
  deliveries :
    s.deliveries.filter (ofTenant (.text t)) = s'.deliveries.filter (ofTenant (.text t))

private theorem eq_text_of_ofTenant {t : String} {row : Row Value}
    (h : ofTenant (.text t) row = true) : row "tenant_id" = .text t :=
  Value.eq_of_same h

private theorem filter_of_imp {α : Type} {p q : α → Bool} {l : List α}
    (h : ∀ a ∈ l, p a = true → q a = true) : l.filter p = (l.filter q).filter p := by
  rw [List.filter_filter]
  apply List.filter_congr
  intro a ha
  cases hp : p a with
  | false => rfl
  | true => simp [h a ha hp]

section

variable {t : String} {s s' : Snapshot} {p : Principal}

private theorem tenants_of_row {row : Row Value} (hrow : row "tenant_id" = .text t) :
    (s.admin .tenants).filter (fun o => (o "id").same (row "tenant_id")) =
      (s.admin .tenants).filter (belongsTo t .tenants) := by
  rw [hrow]
  rfl

theorem AgreeFor.joinTenants_eq (h : AgreeFor t s s') {row : Row Value}
    (hrow : row "tenant_id" = .text t) :
    joinTenants s row = joinTenants s' row := by
  unfold joinTenants join
  rw [tenants_of_row hrow, tenants_of_row hrow, h.owned .tenants (by decide)]

private theorem Snapshot.Sound.members (hs : s.Sound) {group : Row Value}
    (hgroup : group ∈ s.admin .contactGroups) (howner : group "tenant_id" = .text t) :
    (s.admin .contactGroupMembers).filter (fun m => (m "group_id").same (group "id")) =
      ((s.admin .contactGroupMembers).filter (belongsTo t .contactGroupMembers)).filter
        (fun m => (m "group_id").same (group "id")) := by
  apply filter_of_imp
  intro m hm hsame
  obtain ⟨u, hu, g, hg, hid, htenant⟩ := hs.admin.members m hm
  have hgroupID : group "id" = .text u := (Value.eq_of_same hsame).symm.trans hu
  obtain rfl : g = group := hs.admin.row_unique hg hgroup hid hgroupID
  have hm : m "tenant_id" = .text t := htenant.symm.trans howner
  show (m "tenant_id").same (.text t) = true
  rw [hm]
  simp [Value.same]

theorem AgreeFor.withMemberCount_eq (h : AgreeFor t s s') (hs : s.Sound) (hs' : s'.Sound)
    {group : Row Value} (hgroup : group ∈ s.admin .contactGroups)
    (hgroup' : group ∈ s'.admin .contactGroups) (howner : group "tenant_id" = .text t) :
    withMemberCount s group = withMemberCount s' group := by
  unfold withMemberCount memberCount
  rw [hs.members hgroup howner, hs'.members hgroup' howner,
    h.owned .contactGroupMembers (by decide)]

private theorem Snapshot.Sound.deliveriesOf (hs : s.Sound) {n : Row Value}
    (hn : n ∈ s.notifications) (howner : n "tenant_id" = .text t) :
    s.deliveries.filter (fun d => (d "notification_id").same (n "id")) =
      (s.deliveries.filter (ofTenant (.text t))).filter
        (fun d => (d "notification_id").same (n "id")) := by
  apply filter_of_imp
  intro d hd hsame
  obtain ⟨⟨id, notification⟩, hmem, rfl⟩ := List.mem_map.mp hn
  obtain ⟨⟨deliveryID, row⟩, hrow, rfl⟩ := List.mem_map.mp hd
  have hid : Value.int row.notificationID = .int id := Value.eq_of_same hsame
  have hid : row.notificationID = id := by simpa using hid
  have htenant := hs.deliveries id notification deliveryID row (Table.get?_eq_some.mpr hmem)
    (Table.get?_eq_some.mpr hrow) hid
  have howner : Value.text notification.tenantID = .text t := howner
  show (Value.text row.tenantID).same (.text t) = true
  rw [htenant, howner]
  simp [Value.same]

theorem AgreeFor.withLatestDelivery_eq (h : AgreeFor t s s') (hs : s.Sound) (hs' : s'.Sound)
    {n : Row Value} (hn : n ∈ s.notifications) (hn' : n ∈ s'.notifications)
    (howner : n "tenant_id" = .text t) :
    withLatestDelivery s n = withLatestDelivery s' n := by
  unfold withLatestDelivery
  rw [hs.deliveriesOf hn howner, hs'.deliveriesOf hn' howner, h.deliveries]

private theorem tenantRows_eq (h : AgreeFor t s s') {table : AdminTable}
    (htable : table ∈ ownedTables) (howner : table.ownerColumn = "tenant_id")
    {f f' : Row Value → Row Value}
    (hf : ∀ row ∈ s.admin table, row ∈ s'.admin table → row "tenant_id" = .text t →
      f row = f' row) :
    ((s.admin table).filter (ofTenant (.text t))).map f =
      ((s'.admin table).filter (ofTenant (.text t))).map f' := by
  have hagree := h.owned table htable
  have hcond : belongsTo t table = ofTenant (.text t) := by
    funext row
    rw [belongsTo, howner]
    rfl
  rw [hcond] at hagree
  rw [← hagree]
  apply List.map_congr_left
  intro row hrow
  have hrow' := hrow
  rw [hagree] at hrow'
  obtain ⟨hmem, htenant⟩ := List.mem_filter.mp hrow
  exact hf row hmem (List.mem_filter.mp hrow').1 (eq_text_of_ofTenant htenant)

theorem AgreeFor.listTenantRows_eq (h : AgreeFor t s s') (hp : p.isPlatform = false)
    (ht : Uuid.read p.tenantID = some t) (x : Texts) (faults : Faults) (query : Values)
    {table : AdminTable} (htable : table ∈ ownedTables)
    (howner : table.ownerColumn = "tenant_id") {f f' : Row Value → Row Value}
    (fields : List Field)
    (hf : ∀ row ∈ s.admin table, row ∈ s'.admin table → row "tenant_id" = .text t →
      f row = f' row) :
    listTenantRows x faults s p query table f fields =
      listTenantRows x faults s' p query table f' fields := by
  unfold listTenantRows
  rw [TenantFilter.of_tenant hp ht]
  simp only [hp, TenantFilter.rows, Option.map_some, tenantRows_eq h htable howner hf]
  rfl

theorem AgreeFor.listSettings_eq (h : AgreeFor t s s') (x : Texts) (faults : Faults)
    {table : AdminTable} (htable : table ∈ ownedTables)
    (howner : table.ownerColumn = "tenant_id") (catalog : Row Value → List (Row Value))
    (column : String) (fields : List Field) :
    listSettings x faults s (.only (.text t)) table catalog column fields =
      listSettings x faults s' (.only (.text t)) table catalog column
        fields := by
  have hrows := tenantRows_eq h htable howner fun row _ _ _ => rfl (a := id row)
  simp only [List.map_id] at hrows
  have hjoin : ((s.admin table).filter (ofTenant (.text t))).flatMap
      (joinTenants s) =
        ((s'.admin table).filter (ofTenant (.text t))).flatMap
          (joinTenants s') := by
    rw [hrows]
    apply List.flatMap_congr
    intro row hrow
    exact h.joinTenants_eq (eq_text_of_ofTenant (List.mem_filter.mp hrow).2)
  unfold listSettings
  simp only [TenantFilter.rows, Option.map_some, hjoin]

private theorem tenant_of_joined {n row : Row Value}
    (h : row ∈ joinTenants s (withLatestDelivery s n)) : row "tenant_id" = n "tenant_id" := by
  obtain ⟨tenant, -, rfl⟩ := List.mem_map.mp h
  rfl

private theorem filter_flatMap_own {α : Type} {l : List α} {f : α → List (Row Value)}
    {own : α → Bool} {p : Row Value → Bool}
    (h : ∀ a ∈ l, ∀ row ∈ f a, p row = true → own a = true) :
    (l.flatMap f).filter p = ((l.filter own).flatMap f).filter p := by
  induction l with
  | nil => rfl
  | cons a rest ih =>
      have hrest := ih fun b hb => h b (List.mem_cons_of_mem a hb)
      cases hown : own a with
      | true => simp [hown, hrest]
      | false =>
          have hnone : (f a).filter p = [] := by
            rw [List.filter_eq_nil_iff]
            intro row hrow hprow
            have hmine := h a List.mem_cons_self row hrow hprow
            rw [hown] at hmine
            exact absurd hmine (by decide)
          simp [hown, hnone, hrest]

private theorem logRows_cons {x : Texts} {c : String × String} {cond : Row Value → Bool}
    (hcond : logCondition x c.1 c.2 = some cond) (s : Snapshot) (rest : List (String × String)) :
    logRows x s (c :: rest) = (rest.mapM fun c => logCondition x c.1 c.2).map fun conds =>
      (s.notifications.flatMap fun n => joinTenants s (withLatestDelivery s n)).filter fun row =>
        (cond :: conds).all fun cond => cond row := by
  unfold logRows
  rw [List.mapM_cons, hcond]
  cases rest.mapM fun c => logCondition x c.1 c.2 with
  | none => rfl
  | some conds => rfl

theorem AgreeFor.logRows_eq (h : AgreeFor t s s') (hs : s.Sound) (hs' : s'.Sound)
    (ht : Uuid.read p.tenantID = some t) (x : Texts) (rest : List (String × String)) :
    logRows x s (("tenant_id", p.tenantID) :: rest) =
      logRows x s' (("tenant_id", p.tenantID) :: rest) := by
  have hcond : logCondition x "tenant_id" p.tenantID = some (ofTenant (.text t)) := by
    simp only [logCondition, TenantFilter.ofText_eq ht]
  rw [logRows_cons hcond, logRows_cons hcond]
  cases rest.mapM fun c => logCondition x c.1 c.2 with
  | none => rw [Option.map_none, Option.map_none]
  | some conds =>
      have hown : ∀ s : Snapshot, ∀ n ∈ s.notifications,
          ∀ row ∈ joinTenants s (withLatestDelivery s n),
          ((ofTenant (.text t) :: conds).all fun cond => cond row) = true →
            ofTenant (.text t) n = true := by
        intro s n _ row hrow hall
        have hfirst : ofTenant (.text t) row = true := by
          simp only [List.all_cons, Bool.and_eq_true] at hall
          exact hall.1
        unfold ofTenant at hfirst ⊢
        rw [← tenant_of_joined hrow]
        exact hfirst
      rw [Option.map_some, Option.map_some, filter_flatMap_own (hown s),
        filter_flatMap_own (hown s'), ← h.notifications]
      congr 2
      apply List.flatMap_congr
      intro n hn
      have hn' := hn
      rw [h.notifications] at hn'
      obtain ⟨hmem, htenant⟩ := List.mem_filter.mp hn
      have howner := eq_text_of_ofTenant htenant
      rw [h.withLatestDelivery_eq hs hs' hmem (List.mem_filter.mp hn').1 howner]
      exact h.joinTenants_eq howner

theorem AgreeFor.listNotificationLogs_eq (h : AgreeFor t s s') (hs : s.Sound) (hs' : s'.Sound)
    (hp : p.isPlatform = false) (ht : Uuid.read p.tenantID = some t) (x : Texts)
    (faults : Faults) (query : Values) :
    listNotificationLogs x faults s p query =
      listNotificationLogs x faults s' p query := by
  unfold listNotificationLogs logConditions
  simp only [hp, Bool.not_false, if_true, List.cons_append, List.nil_append]
  rw [h.logRows_eq hs hs' ht x]

private theorem handler_eq (h : AgreeFor t s s') (hs : s.Sound) (hs' : s'.Sound)
    (hp : p.isPlatform = false) (ht : Uuid.read p.tenantID = some t) (x : Texts)
    (faults : Faults) (query : Values) (l : ListRequest) :
    l.handler x faults s p query = l.handler x faults s' p query := by
  cases l with
  | contacts => exact h.listTenantRows_eq hp ht x faults query (by decide) rfl _ fun _ _ _ _ => rfl
  | groups =>
      apply h.listTenantRows_eq hp ht x faults query (by decide) rfl
      intro group hgroup hgroup' howner
      exact h.withMemberCount_eq hs hs' hgroup hgroup' howner
  | templates => exact h.listTenantRows_eq hp ht x faults query (by decide) rfl _ fun _ _ _ _ => rfl
  | campaigns => exact h.listTenantRows_eq hp ht x faults query (by decide) rfl _ fun _ _ _ _ => rfl
  | auditLogs => exact h.listTenantRows_eq hp ht x faults query (by decide) rfl _ fun _ _ _ _ => rfl
  | apiKeys => exact h.listTenantRows_eq hp ht x faults query (by decide) rfl _ fun _ _ _ _ => rfl
  | features =>
      have hcatalog : joinFeatureCatalog s = joinFeatureCatalog s' := by
        unfold joinFeatureCatalog
        rw [h.featureCatalog]
      simp only [ListRequest.handler, listFeatures, TenantFilter.of_tenant hp ht, hcatalog]
      exact h.listSettings_eq x faults (by decide) rfl _ _ _
  | channels =>
      have hcatalog : joinPlatformChannels s = joinPlatformChannels s' := by
        unfold joinPlatformChannels
        rw [h.platformChannels]
      simp only [ListRequest.handler, listChannels, TenantFilter.of_tenant hp ht, hcatalog]
      exact h.listSettings_eq x faults (by decide) rfl _ _ _
  | providerConfigs =>
      simp only [ListRequest.handler, listProviderConfigs, TenantFilter.of_tenant hp ht]
      exact h.listSettings_eq x faults (by decide) rfl _ _ _
  | notificationLogs => exact h.listNotificationLogs_eq hs hs' hp ht x faults query

end

/-- In two reachable databases that agree on the rows of tenant `t`, every list answers every
query of a principal of `t` alike. -/
theorem tenant_read_noninterference (cfg : AdminConfig) (config : Config) (x : Texts)
    (faults : Faults) (p : Principal) (hp : p.isPlatform = false) (t : String)
    (ht : Uuid.read p.tenantID = some t) (s s' : Snapshot) (hs : s.Reachable cfg config)
    (hs' : s'.Reachable cfg config) (h : AgreeFor t s s') (query : Values) (l : ListRequest) :
    l.serve x faults s p query = l.serve x faults s' p query := by
  unfold ListRequest.serve
  rw [handler_eq h hs.sound hs'.sound hp ht]

def sampleTexts : Texts where
  toLower := Char.toLower
  fold := Char.toLower
  sprint := Json.toString ∘ some
  marshal
    | .obj fields =>
        String.join ((fields.insertionSort fun a b => a.1 ≤ b.1).map fun f =>
          "\"" ++ f.1 ++ "\":\"" ++ Json.toString (some f.2) ++ "\",")
    | _ => "null"
  sliceStable less items := items.insertionSort fun a b => less b a = false
  compare := Ord.compare
  formatTime _ := "1970-01-01T00:00:00Z"
  parseTime _ := none
  timeText _ := "1970-01-01 00:00:00+00"
  jsonText _ := "[]"
  lower s := String.ofList (s.toList.map Char.toLower)
  collate a b := a ≤ b

def sampleContact (id tenantID name : String) : Row Value :=
  rowOf [("id", .text id), ("tenant_id", .text tenantID), ("name", .text name),
    ("status", .text "active"), ("created_at", .time 0)]

def sampleSnapshot (names : List String) : Snapshot where
  admin
    | .contacts => sampleContact "aaaaaaaa-0000-0000-0000-000000000000" firstTenant "Ann" ::
        names.map (sampleContact "bbbbbbbb-0000-0000-0000-000000000000" secondTenant)
    | _ => []
  pipeline := sampleDb
  createdAt _ := 0
  updatedAt _ := 0
  deliveryUpdatedAt _ := 0

private theorem sampleSnapshot_reachable {names : List String} (h : names.length ≤ 1) :
    (sampleSnapshot names).Reachable sampleAdminConfig (sampleConfig 3) where
  admin := by
    apply AdminDb.Reachable.initial
    constructor
    · intro table
      match names, h with
      | [], _ => cases table <;> simp [sampleSnapshot]
      | [name], _ =>
          cases table <;> simp [sampleSnapshot, sampleContact, rowOf, Value.same]
    · rfl
    · rfl
  pipeline := ⟨sampleWorld, [], sampleWorld, sampleWorld_fresh, .nil _, rfl⟩

/-- Whether the second tenant has a contact that the query would find makes no difference. -/
theorem tenant_read_noninterference_contacts :
    (ListRequest.contacts.serve sampleTexts {} (sampleSnapshot []) ⟨7, firstTenant, false, []⟩
        [("page", "1"), ("tenant_id", secondTenant)]).status = 200 ∧
      ListRequest.contacts.serve sampleTexts {} (sampleSnapshot ["Anna"])
          ⟨7, firstTenant, false, []⟩ [("page", "1"), ("tenant_id", secondTenant)] =
        ListRequest.contacts.serve sampleTexts {} (sampleSnapshot [])
          ⟨7, firstTenant, false, []⟩ [("page", "1"), ("tenant_id", secondTenant)] := by
  refine ⟨by decide +kernel, ?_⟩
  apply tenant_read_noninterference sampleAdminConfig (sampleConfig 3) sampleTexts {}
    ⟨7, firstTenant, false, []⟩ rfl firstTenant (by decide) _ _
    (sampleSnapshot_reachable (by decide)) (sampleSnapshot_reachable (by decide))
  have hother : belongsTo firstTenant .contacts
      (sampleContact "bbbbbbbb-0000-0000-0000-000000000000" secondTenant "Anna") = false := by
    decide
  constructor
  · intro table _
    cases table with
    | contacts => simp [sampleSnapshot, List.filter_cons, hother]
    | _ => rfl
  · rfl
  · rfl
  · rfl
  · rfl

end NotificationPlatform
