import NotificationPlatform.TablePages

/-!
# Lists of the settings of tenants

The lists of features, channels and providers join the settings with the name of their tenant, and
their queries end in `LIMIT 200`. The query contract cuts its pages out of what is left and counts
that, so further rows are on no page and in no total.
-/

namespace NotificationPlatform

open Lib
open Lib.Sql (Row)

/-- The rows of the settings that a principal may see, joined, without the limit of the query. -/
def settingRows (s : Snapshot) (filter : TenantFilter) (table : AdminTable)
    (catalog : Row Value → List (Row Value)) : Option (List (Row Value)) :=
  (filter.rows (s.admin table)).map fun rows => (rows.flatMap (joinTenants s)).flatMap catalog

inductive SettingsList where
  | features
  | channels
  | providers
  deriving DecidableEq, Repr

namespace SettingsList

def request : SettingsList → ListRequest
  | features => .features
  | channels => .channels
  | providers => .providerConfigs

def fields : SettingsList → List Field
  | features => featureFields
  | channels => channelFields
  | providers => providerConfigFields

def orderColumn : SettingsList → String
  | features => "feature_key"
  | channels => "channel"
  | providers => "channel"

/-- The rows that the caller may see; only the list of channels goes by the tenant asked for. -/
def visible (l : SettingsList) (s : Snapshot) (p : Principal) (tenant : String) :
    Option (List (Row Value)) :=
  match l with
  | features => settingRows s (.of p "") .tenantFeatures (joinFeatureCatalog s)
  | channels => settingRows s (.of p tenant) .tenantChannels (joinPlatformChannels s)
  | providers => settingRows s (.of p "") .tenantProviderConfigs fun row => [row]

def page (l : SettingsList) (x : Texts) (s : Snapshot) (p : Principal) (tenant : String)
    (perPage i : Nat) : JsonResponse :=
  l.request.serve x {} s p (paged i perPage [("tenant_id", tenant)])

end SettingsList

/-- The pages up to the last that they report hold every row once, and report how many there are. -/
def CompletePages (x : Texts) (fields : List Field) (rows : List (Row Value))
    (answer : Nat → JsonResponse) : Prop :=
  ∃ items pages, rows.mapM (scanItem x fields) = some items ∧ 1 ≤ pages ∧
    (∀ i, 1 ≤ i → i ≤ pages → Reports (answer i) rows.length pages) ∧
    (allPages answer pages).Perm items

section

variable {x : Texts} {fields : List Field} {rows : List (Row Value)}

private def itemOf (x : Texts) (fields : List Field) (row : Row Value) : Json :=
  (scanItem x fields row).getD .null

private theorem mapM_scanItem (h : ∀ row ∈ rows, (scanItem x fields row).isSome = true) :
    rows.mapM (scanItem x fields) = some (rows.map (itemOf x fields)) := by
  induction rows with
  | nil => rfl
  | cons row rest ih =>
      have hrest := ih fun r hr => h r (by simp [hr])
      obtain ⟨item, hitem⟩ := Option.isSome_iff_exists.mp (h row (by simp))
      have hrow : itemOf x fields row = item := by simp [itemOf, hitem]
      simp [List.mapM_cons, hitem, hrest, hrow]

private theorem itemOf_isObject {row : Row Value} (h : (scanItem x fields row).isSome = true) :
    (itemOf x fields row).isObject = true := by
  obtain ⟨item, hitem⟩ := Option.isSome_iff_exists.mp h
  have hrow : itemOf x fields row = item := by simp [itemOf, hitem]
  obtain ⟨columns, -, rfl⟩ := Option.map_eq_some_iff.mp hitem
  rw [hrow]
  rfl

end

section

variable {x : Texts} {s : Snapshot} {p : Principal} {tenant : String} {rows : List (Row Value)}
  {k : Nat} {l : SettingsList}

private def limited (x : Texts) (l : SettingsList) (rows : List (Row Value)) : List (Row Value) :=
  (orderByTenantThen x l.orderColumn rows).take 200

private theorem mem_of_limited {row : Row Value} (h : row ∈ limited x l rows) : row ∈ rows :=
  (List.mem_insertionSort _).mp (List.mem_of_mem_take h)

private theorem length_limited : (limited x l rows).length = min 200 rows.length := by
  unfold limited orderByTenantThen
  rw [List.length_take, (List.perm_insertionSort _ _).length_eq]

private theorem settings_handler_eq (hrows : l.visible s p tenant = some rows)
    (hscan : ∀ row ∈ rows, (scanItem x l.fields row).isSome = true) (i : Nat) :
    l.request.handler x {} s p (paged i k [("tenant_id", tenant)]) =
      ⟨200, .obj [("data", .arr ((limited x l rows).map (itemOf x l.fields)))]⟩ := by
  have hlisted : listed x {} 0 l.fields (some (limited x l rows)) [] =
      ⟨200, .obj [("data", .arr ((limited x l rows).map (itemOf x l.fields)))]⟩ := by
    have hmap := mapM_scanItem fun row (hrow : row ∈ limited x l rows) =>
      hscan row (mem_of_limited hrow)
    unfold listed
    simp only [Faults.query, Faults.fetched, Bool.false_eq_true, if_false, hmap]
  have htenant : (paged i k [("tenant_id", tenant)]).get "tenant_id" = tenant := rfl
  rw [← hlisted]
  cases l with
  | features =>
      obtain ⟨own, hown, rfl⟩ := Option.map_eq_some_iff.mp hrows
      show listFeatures x {} s p = _
      unfold listFeatures listSettings
      rw [hown]
      rfl
  | channels =>
      obtain ⟨own, hown, rfl⟩ := Option.map_eq_some_iff.mp hrows
      show listChannels x {} s p _ = _
      unfold listChannels listSettings
      rw [htenant, hown]
      rfl
  | providers =>
      obtain ⟨own, hown, rfl⟩ := Option.map_eq_some_iff.mp hrows
      show listProviderConfigs x {} s p = _
      unfold listProviderConfigs listSettings
      rw [hown]
      rfl

variable (hrows : l.visible s p tenant = some rows)
  (hscan : ∀ row ∈ rows, (scanItem x l.fields row).isSome = true) (hk : 1 ≤ k) (hk' : k ≤ 100)

include hrows hscan hk hk'

private theorem pages_eq :
    let items := (limited x l rows).map (itemOf x l.fields)
    allPages (l.page x s p tenant k) (pageCount items.length k) = items ∧
      ∀ i, 1 ≤ i → i ≤ pageCount items.length k →
        Reports (l.page x s p tenant k i) items.length (pageCount items.length k) := by
  intro items
  have hobject : ∀ item ∈ items, item.isObject = true := by
    intro item hitem
    obtain ⟨row, hrow, rfl⟩ := List.mem_map.mp hitem
    exact itemOf_isObject (hscan row (mem_of_limited hrow))
  have hfilter : hasFilter [("tenant_id", tenant)] = false := by
    have hname : hasPrefix "tenant_id" filterPrefix = false := by decide
    simp [hasFilter, hname]
  have hselect : selectItems x [("tenant_id", tenant)] items = items :=
    selectItems_plain rfl rfl hfilter hobject
  have hsize : (items.length : Int) + 100 ≤ maxInt := by
    have hlength : items.length = min 200 rows.length := by rw [List.length_map, length_limited]
    unfold maxInt
    omega
  have hpage : l.page x s p tenant k = fun i =>
      dataTableQuery x (paged i k [("tenant_id", tenant)]) ⟨200, .obj [("data", .arr items)]⟩ := by
    funext i
    unfold SettingsList.page ListRequest.serve
    rw [settings_handler_eq hrows hscan]
  rw [hpage]
  constructor
  · exact allPages_eq (by simp) rfl hobject hselect hsize hk hk'
  · intro i hi hle
    have hbound := bound_of_le_pageCount hk hk' hsize hle
    exact (page_facts (by simp) rfl hobject hselect hsize hk hk' hi hbound).2.2.1

private theorem le_of_complete
    (h : CompletePages x l.fields rows (l.page x s p tenant k)) : rows.length ≤ 200 := by
  obtain ⟨items, pages, -, hpages, hreports, -⟩ := h
  have hfirst := (hreports 1 (le_refl 1) hpages).1
  have hcount := ((pages_eq hrows hscan hk hk').2 1 (le_refl 1) (le_max_left _ _)).1
  rw [hfirst] at hcount
  have htotal := Json.num.inj (Option.some.inj hcount)
  rw [List.length_map, length_limited] at htotal
  have heq : rows.length = min 200 rows.length := by exact_mod_cast htotal
  omega

/-- The pages of the list are complete exactly when the caller may see no more rows than the
limit of the query. -/
theorem setting_pages_complete_iff :
    CompletePages x l.fields rows (l.page x s p tenant k) ↔ rows.length ≤ 200 := by
  constructor
  · exact le_of_complete hrows hscan hk hk'
  · intro hle
    obtain ⟨hall, hreports⟩ := pages_eq hrows hscan hk hk'
    have hlimited : (limited x l rows).Perm rows := by
      unfold limited orderByTenantThen
      rw [List.take_of_length_le (by rw [(List.perm_insertionSort _ _).length_eq]; exact hle)]
      exact List.perm_insertionSort _ _
    have hcount : ((limited x l rows).map (itemOf x l.fields)).length = rows.length := by
      rw [List.length_map, hlimited.length_eq]
    refine ⟨rows.map (itemOf x l.fields),
      pageCount ((limited x l rows).map (itemOf x l.fields)).length k, mapM_scanItem hscan,
      le_max_left _ _, ?_, ?_⟩
    · intro i hi hpage
      rw [← hcount]
      exact hreports i hi hpage
    · rw [hall]
      exact hlimited.map _

end

/-! ## A tenant with many providers -/

def sampleTenantRow : Row Value := rowOf [("id", .text firstTenant), ("name", .text "Acme")]

def sampleProviderRow (i : Nat) : Row Value :=
  rowOf [("id", .text (toString i)), ("tenant_id", .text firstTenant), ("channel", .text "email"),
    ("provider", .text "smtp"), ("is_default", .bool false), ("status", .text "active")]

def sampleProviders (n : Nat) : Snapshot where
  admin
    | .tenants => [sampleTenantRow]
    | .tenantProviderConfigs => (List.range n).map sampleProviderRow
    | _ => []
  pipeline := sampleDb
  createdAt _ := 0
  updatedAt _ := 0
  deliveryUpdatedAt _ := 0

private theorem visible_sampleProviders (n : Nat) :
    SettingsList.providers.visible (sampleProviders n) ⟨7, "", true, []⟩ "" =
      some ((List.range n).map fun i => withTenantName (sampleProviderRow i) sampleTenantRow) := by
  have hjoin : ∀ i, joinTenants (sampleProviders n) (sampleProviderRow i) =
      [withTenantName (sampleProviderRow i) sampleTenantRow] := fun i => rfl
  have hrows : ((List.range n).map sampleProviderRow).flatMap (joinTenants (sampleProviders n)) =
      (List.range n).map fun i => withTenantName (sampleProviderRow i) sampleTenantRow := by
    rw [List.flatMap_map, List.map_eq_flatMap]
    exact List.flatMap_congr fun i _ => hjoin i
  show some ((((List.range n).map sampleProviderRow).flatMap
    (joinTenants (sampleProviders n))).flatMap fun row => [row]) = _
  rw [hrows, List.flatMap_singleton']

private theorem scan_sampleProviders (n : Nat) :
    ∀ row ∈ (List.range n).map fun i => withTenantName (sampleProviderRow i) sampleTenantRow,
      (scanItem sampleTexts SettingsList.providers.fields row).isSome = true := by
  intro row hrow
  obtain ⟨i, -, rfl⟩ := List.mem_map.mp hrow
  rfl

/-- Three providers, two on a page. -/
theorem provider_pages_complete :
    CompletePages sampleTexts SettingsList.providers.fields
      ((List.range 3).map fun i => withTenantName (sampleProviderRow i) sampleTenantRow)
      (SettingsList.providers.page sampleTexts (sampleProviders 3) ⟨7, "", true, []⟩ "" 2) :=
  (setting_pages_complete_iff (visible_sampleProviders 3) (scan_sampleProviders 3) (by decide)
    (by decide)).mpr (by decide)

/-- Of 201 providers one is on no page. -/
theorem provider_pages_cut : ¬∀ (l : SettingsList) (x : Texts) (s : Snapshot) (p : Principal)
    (tenant : String) (rows : List (Row Value)) (k : Nat), l.visible s p tenant = some rows →
    (∀ row ∈ rows, (scanItem x l.fields row).isSome = true) → 1 ≤ k → k ≤ 100 →
    CompletePages x l.fields rows (l.page x s p tenant k) := by
  intro hclaim
  have hcomplete := hclaim .providers sampleTexts (sampleProviders 201) ⟨7, "", true, []⟩ "" _ 100
    (visible_sampleProviders 201) (scan_sampleProviders 201) (by decide) (by decide)
  have hle := le_of_complete (visible_sampleProviders 201) (scan_sampleProviders 201) (by decide)
    (by decide) hcomplete
  rw [List.length_map, List.length_range] at hle
  exact absurd hle (by decide)

end NotificationPlatform
