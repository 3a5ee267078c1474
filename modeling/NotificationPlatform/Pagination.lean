import NotificationPlatform.TablePages

/-!
# Pages of the notification logs

`ListNotificationLogs` cuts its page out of the rows by `LIMIT` and `OFFSET` and counts all of
them. `DataTableQuery` reads the same two parameters, takes the page it is given for the whole list
and cuts a page out of it again. The two agree only where there is nothing to cut.
-/

namespace NotificationPlatform

open Lib
open Lib.Sql (Row)

def bearer (header : String) : String :=
  trimSpace (if hasPrefix header "Bearer " then trimPrefix header "Bearer " else header)

/-- `Chain`: the token, then the permission, then the query contract around the handler. -/
def chain (x : Texts) (verifyJWT : String → Option Principal) (permission : String)
    (next : Principal → JsonResponse) (header : String) (query : Values) : JsonResponse :=
  match verifyJWT (bearer header) with
  | none => .error 401 "unauthorized"
  | some p =>
      if hasPermission p permission then dataTableQuery x query (next p)
      else .error 403 "forbidden"

def getNotifications (x : Texts) (verifyJWT : String → Option Principal) (faults : Faults)
    (s : Snapshot) (header : String) (query : Values) : JsonResponse :=
  chain x verifyJWT "notifications.view" (fun p => listNotificationLogs x faults s p query) header
    query

def pageQuery (page perPage : Nat) : Values :=
  [("page", toString page), ("per_page", toString perPage)]

def createdAfter (a b : Row Value) : Prop :=
  ∃ ta tb, a "created_at" = .time ta ∧ b "created_at" = .time tb ∧ tb < ta

/-- The answer is one page of the rows, newest first, with the number of all rows and pages. -/
def PageOf (x : Texts) (rows : List (Row Value)) (page perPage : Nat) (r : JsonResponse) : Prop :=
  ∃ (sorted : List (Row Value)) (items : List Json), sorted.Perm rows ∧ sorted.Pairwise createdAfter ∧
    sorted.mapM (scanItem x logFields) = some items ∧ r.status = 200 ∧
    r.body.field? "data" =
      some (.arr ((items.drop ((page - 1) * perPage)).take perPage)) ∧
    (r.body.field? "meta").bind (Json.field? "total") = some (.num rows.length) ∧
    (r.body.field? "meta").bind (Json.field? "total_pages") =
      some (.num ((rows.length ⌈/⌉ perPage : Nat) : Int))

section

variable {page perPage : Nat}

private theorem pagination_pageQuery (hpage : 1 ≤ page) (hper : 1 ≤ perPage)
    (hper' : perPage ≤ 100) (hbound : (page * perPage : Int) ≤ maxInt) :
    pagination (pageQuery page perPage) =
      ((page : Int), (perPage : Int), (((page - 1) * perPage : Nat) : Int)) := by
  obtain ⟨h1, h2⟩ := numbers_le hpage hper hbound
  have hgetPage : (pageQuery page perPage).get "page" = toString page := rfl
  have hgetPer : (pageQuery page perPage).get "per_page" = toString perPage := rfl
  unfold pagination
  rw [hgetPage, hgetPer, atoi_toString h1, atoi_toString h2]
  have hnot1 : ¬(page : Int) < 1 := by omega
  have hnot2 : ¬(perPage : Int) < 1 := by omega
  have hnot3 : ¬(perPage : Int) > 100 := by omega
  simp only [hnot1, hnot2, hnot3, if_false, offset_eq hpage hbound]

end

def NamedTenants (s : Snapshot) : Prop :=
  ∀ tenant ∈ s.admin .tenants, ∃ name, tenant "name" = .text name

section

variable {x : Texts} {s : Snapshot} {conds : List (String × String)} {rows : List (Row Value)}

private theorem row_of_logRows (h : logRows x s conds = some rows) {row : Row Value}
    (hrow : row ∈ rows) : ∃ n, ∃ tenant ∈ s.admin .tenants,
      row = withTenantName (withLatestDelivery s (s.notificationRow n)) tenant := by
  obtain ⟨cs, -, rfl⟩ := Option.map_eq_some_iff.mp h
  have hmem := (List.mem_filter.mp hrow).1
  obtain ⟨r, hr, hjoin⟩ := List.mem_flatMap.mp hmem
  obtain ⟨n, -, rfl⟩ := List.mem_map.mp hr
  obtain ⟨tenant, htenant, rfl⟩ := List.mem_map.mp hjoin
  exact ⟨n, tenant, (List.mem_filter.mp htenant).1, rfl⟩

private theorem time_of_logRows (h : logRows x s conds = some rows) {row : Row Value}
    (hrow : row ∈ rows) : ∃ t, row "created_at" = .time t := by
  obtain ⟨n, tenant, -, rfl⟩ := row_of_logRows h hrow
  exact ⟨s.createdAt n.1, rfl⟩

private theorem latest_text (s : Snapshot) (n : Row Value) (column : String)
    (hcolumn : column = "d.status" ∨ column = "d.channel" ∨ column = "d.provider") :
    (∃ t, withLatestDelivery s n column = .text t) ∨ withLatestDelivery s n column = .null := by
  have hlatest : ∀ (ds : List (Row Value)), (∀ d ∈ ds, ∃ e, d = s.deliveryRow e) →
      ∀ c ∈ ["status", "channel", "provider"],
        (∃ t, (ds.head?.map fun d => d c).getD .null = .text t) ∨
          (ds.head?.map fun d => d c).getD .null = .null := by
    intro ds hds c hc
    cases ds with
    | nil => exact .inr rfl
    | cons d rest =>
        obtain ⟨e, rfl⟩ := hds d (by simp)
        have hc' : c = "status" ∨ c = "channel" ∨ c = "provider" := by simpa using hc
        rcases hc' with rfl | rfl | rfl <;> exact .inl ⟨_, rfl⟩
  have hdeliveries : ∀ d ∈ orderDesc "updated_at"
      (s.deliveries.filter fun d => (d "notification_id").same (n "id")),
      ∃ e, d = s.deliveryRow e := by
    intro d hd
    have hmem := (List.mem_insertionSort _).mp hd
    obtain ⟨e, -, rfl⟩ := List.mem_map.mp (List.mem_filter.mp hmem).1
    exact ⟨e, rfl⟩
  rcases hcolumn with rfl | rfl | rfl
  · exact hlatest _ hdeliveries "status" (by simp)
  · exact hlatest _ hdeliveries "channel" (by simp)
  · exact hlatest _ hdeliveries "provider" (by simp)

private theorem scanItem_of_read {fields : List Field} {row : Row Value}
    (h : ∀ f ∈ fields, ∃ j, f.scan.read x (row f.column) = some j) :
    ∃ items, scanItem x fields row = some (.obj items) := by
  have hmap : ∃ items, (fields.mapM fun (f : Field) =>
      (f.scan.read x (row f.column)).map fun v => (f.key, v)) = some items := by
    induction fields with
    | nil => exact ⟨[], rfl⟩
    | cons f rest ih =>
        obtain ⟨items, hitems⟩ := ih fun g hg => h g (by simp [hg])
        obtain ⟨j, hj⟩ := h f (by simp)
        exact ⟨(f.key, j) :: items, by simp [List.mapM_cons, hj, hitems]⟩
  obtain ⟨items, hitems⟩ := hmap
  exact ⟨items, by simp [scanItem, hitems]⟩

private theorem read_textOr (x : Texts) (fallback : String) {v : Value}
    (h : (∃ t, v = .text t) ∨ v = .null) : ∃ j, (Scan.textOr fallback).read x v = some j := by
  rcases h with ⟨t, rfl⟩ | rfl
  · exact ⟨_, rfl⟩
  · exact ⟨_, rfl⟩

private theorem read_nullable (x : Texts) {v : Value} (h : (∃ t, v = .text t) ∨ v = .null) :
    ∃ j, Scan.nullable.read x v = some j := by
  rcases h with ⟨t, rfl⟩ | rfl
  · exact ⟨_, rfl⟩
  · exact ⟨_, rfl⟩

private theorem idempotencyKey_text (s : Snapshot) (n : Nat × Notification) :
    (∃ t, s.notificationRow n "idempotency_key" = .text t) ∨
      s.notificationRow n "idempotency_key" = .null := by
  cases hkey : n.2.idempotencyKey with
  | some key =>
      left
      exact ⟨key, by simp [Snapshot.notificationRow, hkey]⟩
  | none =>
      right
      simp [Snapshot.notificationRow, hkey]

private theorem scan_of_logRows (h : logRows x s conds = some rows) (hnamed : NamedTenants s)
    {row : Row Value} (hrow : row ∈ rows) :
    ∃ fields, scanItem x logFields row = some (.obj fields) := by
  obtain ⟨n, tenant, htenant, rfl⟩ := row_of_logRows h hrow
  obtain ⟨name, hname⟩ := hnamed tenant htenant
  have hlatest := fun column hcolumn =>
    latest_text s (s.notificationRow n) column hcolumn
  apply scanItem_of_read
  intro f hf
  simp only [logFields, List.mem_cons, List.not_mem_nil, or_false] at hf
  rcases hf with rfl | rfl | rfl | rfl | rfl | rfl | rfl | rfl | rfl | rfl | rfl
  · exact ⟨_, rfl⟩
  · exact ⟨_, rfl⟩
  · show ∃ j, Scan.text.read x (tenant "name") = some j
    rw [hname]
    exact ⟨_, rfl⟩
  · exact ⟨_, rfl⟩
  · exact ⟨_, rfl⟩
  · exact read_textOr x "pending" (hlatest "d.status" (.inl rfl))
  · exact read_textOr x "" (hlatest "d.channel" (.inr (.inl rfl)))
  · exact read_textOr x "" (hlatest "d.provider" (.inr (.inr rfl)))
  · exact read_nullable x (idempotencyKey_text s n)
  · exact ⟨_, rfl⟩
  · exact ⟨_, rfl⟩

private theorem mapM_of_logRows (h : logRows x s conds = some rows) (hnamed : NamedTenants s)
    {part : List (Row Value)} (hpart : ∀ row ∈ part, row ∈ rows) :
    ∃ items, part.mapM (scanItem x logFields) = some items ∧ items.length = part.length ∧
      ∀ item ∈ items, item.isObject = true := by
  induction part with
  | nil => exact ⟨[], rfl, rfl, by simp⟩
  | cons row rest ih =>
      obtain ⟨items, hitems, hlength, hobject⟩ := ih fun r hr => hpart r (by simp [hr])
      obtain ⟨fields, hfields⟩ := scan_of_logRows h hnamed (hpart row (by simp))
      refine ⟨.obj fields :: items, ?_, by simp [hlength], ?_⟩
      · simp [List.mapM_cons, hfields, hitems]
      · intro item hitem
        rcases List.mem_cons.mp hitem with rfl | hitem
        · rfl
        · exact hobject item hitem

private def createdTime (row : Row Value) : Int :=
  match row "created_at" with
  | .time t => t
  | _ => 0

private theorem createdTime_eq {row : Row Value} {t : Int} (h : row "created_at" = .time t) :
    createdTime row = t := by
  unfold createdTime
  rw [h]

private theorem pairwise_orderDesc (htime : ∀ row ∈ rows, ∃ t, row "created_at" = .time t)
    (hdistinct : rows.Pairwise fun a b => a "created_at" ≠ b "created_at") :
    (orderDesc "created_at" rows).Pairwise createdAfter := by
  have hperm : (orderDesc "created_at" rows).Perm rows := List.perm_insertionSort _ _
  have hmap : (orderDesc "created_at" rows).map createdTime =
      (rows.map createdTime).insertionSort (· ≥ ·) := by
    apply List.map_insertionSort
    intro a ha b hb
    obtain ⟨ta, hta⟩ := htime a ha
    obtain ⟨tb, htb⟩ := htime b hb
    rw [createdTime_eq hta, createdTime_eq htb, hta, htb]
    simp [Value.descending]
  have hsorted : ((orderDesc "created_at" rows).map createdTime).Pairwise (· ≥ ·) := by
    rw [hmap]
    exact List.pairwise_insertionSort _ _
  have hne : (orderDesc "created_at" rows).Pairwise fun a b => a "created_at" ≠ b "created_at" :=
    hperm.symm.pairwise hdistinct fun h => h.symm
  have hboth := (List.pairwise_map.mp hsorted).and hne
  apply hboth.imp_of_mem
  intro a b ha hb hab
  obtain ⟨ta, hta⟩ := htime a (hperm.mem_iff.mp ha)
  obtain ⟨tb, htb⟩ := htime b (hperm.mem_iff.mp hb)
  rw [createdTime_eq hta, createdTime_eq htb, hta, htb] at hab
  refine ⟨ta, tb, hta, htb, ?_⟩
  have hle : tb ≤ ta := hab.1
  have hneq : ta ≠ tb := fun h => hab.2 (by rw [h])
  omega

end

section

variable {x : Texts} {s : Snapshot} {p : Principal} {rows : List (Row Value)}
  {page perPage : Nat}

private theorem listNotificationLogs_page (hpage : 1 ≤ page) (hper : 1 ≤ perPage)
    (hper' : perPage ≤ 100) (hbound : (page * perPage : Int) ≤ maxInt)
    (hrows : logRows x s (logConditions p (pageQuery page perPage)) = some rows)
    {items : List Json}
    (hitems : (((orderDesc "created_at" rows).drop ((page - 1) * perPage)).take perPage).mapM
      (scanItem x logFields) = some items) :
    listNotificationLogs x {} s p (pageQuery page perPage) =
      ⟨200, .obj [("data", .arr items), ("meta", paginationMeta page perPage rows.length)]⟩ := by
  have hnot : ¬(((page - 1) * perPage : Nat) : Int) < 0 := by omega
  unfold listNotificationLogs
  rw [pagination_pageQuery hpage hper hper' hbound, hrows]
  simp only [Faults.query, Bool.false_eq_true, if_false, if_neg hnot, Option.map_some, listed,
    Faults.fetched, Int.toNat_natCast, hitems]

private theorem dataTableQuery_page (hpage : 1 ≤ page) (hper : 1 ≤ perPage)
    (hper' : perPage ≤ 100) (hbound : (page * perPage : Int) ≤ maxInt) {items : List Json}
    (hobject : ∀ item ∈ items, item.isObject = true) (hlength : items.length ≤ 100) (info : Json) :
    dataTableQuery x (pageQuery page perPage)
        ⟨200, .obj [("data", .arr items), ("meta", info)]⟩ =
      ⟨200, .obj [("data", .arr ((items.drop ((page - 1) * perPage)).take perPage)),
        ("meta", tableMeta page perPage items.length)]⟩ := by
  have hitems : selectItems x [] items = items := selectItems_plain rfl rfl rfl hobject
  have hsize : (items.length : Int) + 100 ≤ maxInt := by
    have hmax : (200 : Int) ≤ maxInt := by decide
    omega
  let r : JsonResponse := ⟨200, .obj [("data", .arr items), ("meta", info)]⟩
  have hstatus : r.status < 300 := by
    show 200 < 300
    omega
  exact dataTableQuery_paged hstatus rfl rfl hobject hitems hsize hpage hper hper' hbound

private theorem getNotifications_page (verifyJWT : String → Option Principal) (header : String)
    (hverify : verifyJWT (bearer header) = some p)
    (hperm : hasPermission p "notifications.view" = true)
    (hrows : logRows x s (logConditions p (pageQuery page perPage)) = some rows)
    (hnamed : NamedTenants s) (hpage : 1 ≤ page) (hper : 1 ≤ perPage) (hper' : perPage ≤ 100)
    (hbound : (page * perPage : Int) ≤ maxInt) :
    ∃ items, (((orderDesc "created_at" rows).drop ((page - 1) * perPage)).take perPage).mapM
        (scanItem x logFields) = some items ∧
      items.length = min perPage (rows.length - (page - 1) * perPage) ∧
      getNotifications x verifyJWT {} s header (pageQuery page perPage) =
        ⟨200, .obj [("data", .arr ((items.drop ((page - 1) * perPage)).take perPage)),
          ("meta", tableMeta page perPage items.length)]⟩ := by
  have hperm' : (orderDesc "created_at" rows).Perm rows := List.perm_insertionSort _ _
  have hpart : ∀ row ∈ ((orderDesc "created_at" rows).drop ((page - 1) * perPage)).take perPage,
      row ∈ rows := by
    intro row hrow
    exact hperm'.mem_iff.mp (List.mem_of_mem_drop (List.mem_of_mem_take hrow))
  obtain ⟨items, hitems, hlength, hobject⟩ := mapM_of_logRows hrows hnamed hpart
  have hcount : items.length = min perPage (rows.length - (page - 1) * perPage) := by
    rw [hlength, List.length_take, List.length_drop, hperm'.length_eq]
  refine ⟨items, hitems, hcount, ?_⟩
  unfold getNotifications chain
  rw [hverify]
  dsimp only
  rw [if_pos hperm, listNotificationLogs_page hpage hper hper' hbound hrows hitems,
    dataTableQuery_page hpage hper hper' hbound hobject (by omega)]

/-- The two layers together page the logs exactly when they all fit on the first page. -/
theorem notifications_page_iff {verifyJWT : String → Option Principal} {header : String}
    (hverify : verifyJWT (bearer header) = some p)
    (hperm : hasPermission p "notifications.view" = true)
    (hrows : logRows x s (logConditions p (pageQuery page perPage)) = some rows)
    (hvisible : 1 ≤ rows.length)
    (hdistinct : rows.Pairwise fun a b => a "created_at" ≠ b "created_at")
    (hnamed : NamedTenants s) (hpage : 1 ≤ page) (hper : 1 ≤ perPage) (hper' : perPage ≤ 100)
    (hbound : (page * perPage : Int) ≤ maxInt) :
    PageOf x rows page perPage
        (getNotifications x verifyJWT {} s header (pageQuery page perPage)) ↔
      page = 1 ∧ rows.length ≤ perPage := by
  obtain ⟨items, hitems, hlength, hresponse⟩ :=
    getNotifications_page verifyJWT header hverify hperm hrows hnamed hpage hper hper' hbound
  rw [hresponse]
  constructor
  · -- the total that is reported is the length of the page
    rintro ⟨sorted, all, -, -, -, -, -, htotal, -⟩
    have htotal' : (items.length : Int) = rows.length := by
      have hnum := Json.num.inj (Option.some.inj htotal)
      exact_mod_cast hnum
    have hcount : items.length = rows.length := by exact_mod_cast htotal'
    rw [hlength] at hcount
    have hfirst : page = 1 := by
      by_contra hne
      have hskip : perPage ≤ (page - 1) * perPage :=
        Nat.le_mul_of_pos_left perPage (by omega)
      omega
    exact ⟨hfirst, by omega⟩
  · rintro ⟨rfl, hfits⟩
    have hperm' : (orderDesc "created_at" rows).Perm rows := List.perm_insertionSort _ _
    have hall : ((orderDesc "created_at" rows).drop ((1 - 1) * perPage)).take perPage =
        orderDesc "created_at" rows := by
      simp only [Nat.sub_self, Nat.zero_mul, List.drop_zero]
      apply List.take_of_length_le
      rw [hperm'.length_eq]
      exact hfits
    have hcount : items.length = rows.length := by
      rw [hlength]
      omega
    rw [hall] at hitems
    have hpages : max 1 (items.length ⌈/⌉ perPage) = rows.length ⌈/⌉ perPage := by
      rw [hcount, Nat.ceilDiv_eq_add_pred_div]
      have hone : (rows.length + perPage - 1) / perPage = 1 := by
        rw [Nat.div_eq_iff (by omega)]
        omega
      rw [hone]
      rfl
    refine ⟨orderDesc "created_at" rows, items, hperm',
      pairwise_orderDesc (fun row hrow => time_of_logRows hrows hrow) hdistinct, hitems, rfl, rfl,
      ?_, ?_⟩
    · rw [← hcount]
      rfl
    · rw [← hpages]
      rfl

end

def sampleNotification (publicID : String) : Notification :=
  ⟨"t1", publicID, "order.created", "order", "contact", .obj [], .obj [], .arr [], 5, "instant",
    none, .queued, none⟩

def sampleLogs (publicIDs : List String) : Snapshot where
  admin
    | .tenants => [rowOf [("id", .text "t1"), ("name", .text "Acme")]]
    | _ => []
  pipeline := { sampleDb with
    notifications := Table.empty.insertAll
      ((publicIDs.map sampleNotification).zipIdx.map fun n => (n.2, n.1)) }
  createdAt n := n
  updatedAt n := n
  deliveryUpdatedAt _ := 0

def platformAdmin : Principal := ⟨7, "", true, []⟩

private theorem sampleLogs_named (publicIDs : List String) : NamedTenants (sampleLogs publicIDs) := by
  intro tenant htenant
  obtain rfl := List.mem_singleton.mp htenant
  exact ⟨"Acme", rfl⟩

def sampleRows (publicIDs : List String) : List (Row Value) :=
  (sampleLogs publicIDs).notifications.flatMap fun n =>
    joinTenants (sampleLogs publicIDs) (withLatestDelivery (sampleLogs publicIDs) n)

private theorem logRows_sample (publicIDs : List String) (page perPage : Nat) :
    logRows sampleTexts (sampleLogs publicIDs)
      (logConditions platformAdmin (pageQuery page perPage)) = some (sampleRows publicIDs) := by
  have hconds : logConditions platformAdmin (pageQuery page perPage) = [] := by
    have htrim : trimSpace "" = "" := by decide
    simp [logConditions, platformAdmin, pageQuery, Values.get, List.lookup_cons, htrim]
  rw [hconds]
  simp [logRows, sampleRows]

private theorem sampleRows_distinct :
    (sampleRows ["ntf_1", "ntf_2"]).Pairwise fun a b => a "created_at" ≠ b "created_at" := by
  have htimes : (sampleRows ["ntf_1", "ntf_2"]).map (fun row => row "created_at") =
      [.time 0, .time 1] := rfl
  have hne : ([.time 0, .time 1] : List Value).Pairwise (· ≠ ·) := by simp
  rw [← htimes] at hne
  exact List.pairwise_map.mp hne

/-- Two notifications are the first page of length two. -/
theorem notifications_page_whole :
    (sampleRows ["ntf_1", "ntf_2"]).length = 2 ∧
      PageOf sampleTexts (sampleRows ["ntf_1", "ntf_2"]) 1 2 (getNotifications sampleTexts
        (fun _ => some platformAdmin) {} (sampleLogs ["ntf_1", "ntf_2"]) "Bearer x"
        (pageQuery 1 2)) := by
  refine ⟨rfl, ?_⟩
  apply (notifications_page_iff (p := platformAdmin) rfl rfl (logRows_sample _ 1 2) (by decide)
    sampleRows_distinct (sampleLogs_named _) (by decide) (by decide) (by decide) (by decide)).mpr
  exact ⟨rfl, by decide⟩

/-- The second of two pages reports one row in all. -/
theorem second_page_miscounts : ¬∀ (x : Texts) (verifyJWT : String → Option Principal)
    (s : Snapshot) (header : String) (p : Principal) (rows : List (Row Value))
    (page perPage : Nat), verifyJWT (bearer header) = some p →
    hasPermission p "notifications.view" = true →
    logRows x s (logConditions p (pageQuery page perPage)) = some rows → 1 ≤ rows.length →
    (rows.Pairwise fun a b => a "created_at" ≠ b "created_at") → NamedTenants s → 1 ≤ page →
    1 ≤ perPage → perPage ≤ 100 → (page * perPage : Int) ≤ maxInt →
    PageOf x rows page perPage
      (getNotifications x verifyJWT {} s header (pageQuery page perPage)) := by
  intro hclaim
  have hpage := hclaim sampleTexts (fun _ => some platformAdmin)
    (sampleLogs ["ntf_1", "ntf_2"]) "Bearer x" platformAdmin _ 2 1 rfl rfl
    (logRows_sample _ 2 1) (by decide) sampleRows_distinct (sampleLogs_named _) (by decide)
    (by decide) (by decide) (by decide)
  obtain ⟨items, -, hlength, hresponse⟩ := getNotifications_page (x := sampleTexts)
    (p := platformAdmin) (fun _ => some platformAdmin) "Bearer x" rfl rfl
    (logRows_sample ["ntf_1", "ntf_2"] 2 1) (sampleLogs_named _) (by decide) (by decide)
    (by decide) (by decide)
  rw [hresponse] at hpage
  obtain ⟨-, -, -, -, -, -, -, htotal, -⟩ := hpage
  have hone : items.length = 1 := hlength
  have hnum := Json.num.inj (Option.some.inj htotal)
  rw [hone] at hnum
  exact absurd hnum (by decide)

end NotificationPlatform
