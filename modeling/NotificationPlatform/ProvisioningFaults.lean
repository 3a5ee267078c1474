import NotificationPlatform.ConfigWriters

/-!
# What a failed provisioning leaves behind

Every statement of a provisioning stands for itself: what succeeded before a failure stays. The
rows that a statement writes carry the clock reading of the request in `updated_at`, and the rows
that it deletes are missing, so that nothing behind it can undo what it did.
-/

namespace NotificationPlatform

open Lib Lib.Sql

def AdminDb.hasRows (db : AdminDb) (table : AdminTable) (tenantID : String) : Bool :=
  (readColumn table.ownerColumn (.text tenantID)).any fun v =>
    (db table).any fun r => (r table.ownerColumn).same v

def AdminDb.provisioned (db : AdminDb) :
    List (Row Value) × List (Row Value) × List (Row Value) × List (Row Value) × List (Row Value) :=
  (db .tenants, db .tenantFeatures, db .tenantChannels, db .tenantProviderConfigs,
    db .notificationTemplates)

namespace ProvisionStep

/-- A statement that has no rows to write in this database. -/
def Idle (tenantID : String) : ProvisionStep → AdminDb → Prop
  | .tenant _ _, db | .settings _, db => db.hasRows .tenants tenantID = false
  | .features _, db => ((db .featureCatalog).any fun f => (f "status").same (.text "active")) = false
  | .deleteProviders, db => db.hasRows .tenantProviderConfigs tenantID = false
  | .deleteTemplates, db => db.hasRows .notificationTemplates tenantID = false
  | .channel _, _ | .provider _, _ | .template _, _ => False

def deletes : ProvisionStep → Bool
  | .deleteProviders | .deleteTemplates => true
  | _ => false

end ProvisionStep

/-- A table was written at a time: rows are old or carry the time, and no old row goes without a
row that carries it. -/
structure StampedWrites (now : Int) (table : AdminTable) (db db' : AdminDb) : Prop where
  frame : ∀ u, u ≠ table → db' u = db u
  rows : ∀ r ∈ db' table, r ∈ db table ∨ r "updated_at" = .time now
  kept : ∀ r ∈ db table, r ∈ db' table ∨ ∃ r' ∈ db' table, r' "updated_at" = .time now

structure Drops (table : AdminTable) (db db' : AdminDb) : Prop where
  frame : ∀ u, u ≠ table → db' u = db u
  rows : ∀ r ∈ db' table, r ∈ db table

variable {now : Int} {table : AdminTable} {db db' db'' : AdminDb} {tenantID : String}

theorem StampedWrites.refl (now : Int) (table : AdminTable) (db : AdminDb) :
    StampedWrites now table db db where
  frame _ _ := rfl
  rows _ hr := .inl hr
  kept _ hr := .inl hr

theorem StampedWrites.stamped (h : StampedWrites now table db db')
    (hrow : ∃ r ∈ db table, r "updated_at" = .time now) :
    ∃ r ∈ db' table, r "updated_at" = .time now := by
  obtain ⟨r, hr, htime⟩ := hrow
  rcases h.kept r hr with hkept | hstamped
  · exact ⟨r, hkept, htime⟩
  · exact hstamped

theorem StampedWrites.trans (h : StampedWrites now table db db')
    (h' : StampedWrites now table db' db'') : StampedWrites now table db db'' where
  frame u hu := (h'.frame u hu).trans (h.frame u hu)
  rows r hr := by
    rcases h'.rows r hr with hr | hr
    · exact h.rows r hr
    · exact .inr hr
  kept r hr := by
    rcases h.kept r hr with hr | hstamped
    · exact h'.kept r hr
    · exact .inr (h'.stamped hstamped)

theorem writes_replace (db : AdminDb) (table : AdminTable) {f : Row Value → Row Value}
    (selected : Row Value → Bool) (hdb : db' = fun u =>
      if u = table then (db table).map fun r => if selected r then f r else r else db u)
    (htime : ∀ r, f r "updated_at" = .time now) :
    StampedWrites now table db db' ∧
      ((db table).any selected = true → ∃ r ∈ db' table, r "updated_at" = .time now) := by
  have hrows : db' table = (db table).map fun r => if selected r then f r else r := by
    rw [hdb]
    exact if_pos rfl
  have hmem : ∀ r ∈ db table, (if selected r then f r else r) ∈ db' table := by
    intro r hr
    rw [hrows]
    exact List.mem_map_of_mem (f := fun r => if selected r then f r else r) hr
  refine ⟨⟨fun u hu => by rw [hdb]; exact if_neg hu, ?_, ?_⟩, ?_⟩
  · intro r hr
    rw [hrows] at hr
    obtain ⟨old, hold, rfl⟩ := List.mem_map.mp hr
    by_cases hselected : selected old = true
    · exact .inr (by rw [if_pos hselected, htime])
    · exact .inl (by rwa [if_neg hselected])
  · intro r hr
    have hnew := hmem r hr
    by_cases hselected : selected r = true
    · rw [if_pos hselected] at hnew
      exact .inr ⟨_, hnew, htime r⟩
    · rw [if_neg hselected] at hnew
      exact .inl hnew
  · intro hany
    obtain ⟨r, hr, hselected⟩ := List.any_eq_true.mp hany
    have hnew := hmem r hr
    rw [if_pos hselected] at hnew
    exact ⟨f r, hnew, htime r⟩

theorem writes_insert {row : Row Value} (h : adminEngine.insert db table row = some db')
    (htime : row "updated_at" = .time now) :
    StampedWrites now table db db' ∧ ∃ r ∈ db' table, r "updated_at" = .time now := by
  obtain ⟨-, rfl⟩ := Engine.insert_cases adminEngine h
  refine ⟨⟨fun u hu => by simp [hu], ?_, ?_⟩, row, by simp, htime⟩
  · intro r hr
    have hr : r ∈ db table ∨ r = row := by simpa using hr
    rcases hr with hr | rfl
    · exact .inl hr
    · exact .inr htime
  · intro r hr
    exact .inl (by simp [hr])

theorem writes_upsert {keys sets : List String} {row : Row Value}
    (h : db.upsert table keys sets now row = some db') (htime : row "updated_at" = .time now)
    (hsets : "updated_at" ∉ sets) :
    StampedWrites now table db db' ∧ ∃ r ∈ db' table, r "updated_at" = .time now := by
  have hassign : ∀ r : Row Value, assign (sets.map (fun c => (c, row c)) ++
      [("updated_at", .time now)]) r "updated_at" = .time now := by
    intro r
    have hnone : (sets.map fun c => (c, row c)).lookup "updated_at" = none := by
      rw [List.lookup_eq_none_iff]
      intro p hp
      obtain ⟨c, hc, rfl⟩ := List.mem_map.mp hp
      simp only [bne_iff_ne, ne_eq]
      rintro rfl
      exact hsets hc
    simp [assign, List.lookup_append, hnone]
  unfold AdminDb.upsert at h
  split at h
  · next hany =>
      dsimp only at h
      split at h
      · obtain rfl := Option.some.inj h
        have hreplace := writes_replace db table (agreeOn keys row) rfl hassign
        exact ⟨hreplace.1, hreplace.2 hany⟩
      · simp at h
  · unfold AdminDb.insertOwned at h
    split at h
    · exact writes_insert h htime
    · simp at h

theorem writes_upsertAll {keys sets : List String} {rows : List (Row Value)}
    (h : db.upsertAll table keys sets now rows = some db')
    (htime : ∀ row ∈ rows, row "updated_at" = .time now) (hsets : "updated_at" ∉ sets) :
    StampedWrites now table db db' ∧
      (rows ≠ [] → ∃ r ∈ db' table, r "updated_at" = .time now) := by
  induction rows generalizing db with
  | nil =>
      obtain rfl : db = db' := by simpa [AdminDb.upsertAll] using h
      exact ⟨StampedWrites.refl now table db, by simp⟩
  | cons row rows ih =>
      rw [AdminDb.upsertAll, List.foldlM_cons] at h
      obtain ⟨mid, hmid, hrest⟩ := Option.bind_eq_some_iff.mp h
      obtain ⟨hwrites, hstamped⟩ := writes_upsert hmid (htime row (by simp)) hsets
      obtain ⟨hwrites', -⟩ := ih hrest fun r hr => htime r (List.mem_cons_of_mem _ hr)
      exact ⟨hwrites.trans hwrites', fun _ => hwrites'.stamped hstamped⟩

theorem update_eq (db : AdminDb) (table : AdminTable) (sets conds : List (String × Value)) :
    (fun u => (db u).filterMap (adminEngine.updated table sets conds u)) = fun u =>
      if u = table then
        (db table).map fun r => if adminEngine.selects conds r then assign sets r else r
      else db u := by
  funext u
  by_cases hu : u = table
  · subst hu
    rw [if_pos rfl, ← List.filterMap_eq_map]
    apply List.filterMap_congr
    intro r _
    by_cases hr : adminEngine.selects conds r = true <;> simp [Engine.updated, hr]
  · rw [if_neg hu]
    have hsame : ∀ r : Row Value, adminEngine.updated table sets conds u r = some r := by
      intro r
      simp [Engine.updated, hu]
    simp [hsame]

theorem delete_eq {conds : List (String × Value)}
    (hreferences : ∀ ref ∈ adminReferences, ref.parent ≠ table) :
    (fun u => (db u).filterMap (adminEngine.remaining db table conds u)) = fun u =>
      if u = table then (db table).filter fun r => !adminEngine.selects conds r else db u := by
  have hrelease : ∀ u (r : Row Value), adminEngine.release table
      ((db table).filter (adminEngine.selects conds)) u r = some r := by
    intro u r
    have hnil : (adminEngine.references.filter fun ref => decide (ref.parent = table) &&
        decide (ref.child = u) && adminEngine.refers
          ((db table).filter (adminEngine.selects conds)) ref r) = [] := by
      rw [List.filter_eq_nil_iff]
      intro ref href
      simp [hreferences ref href]
    rw [Engine.release, hnil]
    rfl
  funext u
  by_cases hu : u = table
  · subst hu
    rw [if_pos rfl, ← List.filterMap_eq_filter]
    apply List.filterMap_congr
    intro r _
    by_cases hr : adminEngine.selects conds r = true <;>
      simp [Engine.remaining, hr, hrelease, Option.guard]
  · rw [if_neg hu]
    have hsame : ∀ r : Row Value, adminEngine.remaining db table conds u r = some r := by
      intro r
      simp [Engine.remaining, hu, hrelease]
    simp [hsame]

theorem bind_owner (tenantID : String) {clock : Value} {args : List Value} {column : String}
    {n : Nat} {bound : List (String × Value)} (harg : args[n]? = some (.text tenantID))
    (h : adminEngine.bind clock args [(column, .param (n + 1))] = some bound) :
    ∃ v, readColumn column (.text tenantID) = some v ∧ bound = [(column, v)] := by
  have hread : adminEngine.read column (.text tenantID) = readColumn column (.text tenantID) := rfl
  simp only [Engine.bind, Term.eval, harg, Option.bind_some, hread] at h
  cases hv : readColumn column (.text tenantID) with
  | none => simp [hv] at h
  | some v => exact ⟨v, rfl, by simpa [hv, eq_comm] using h⟩

theorem bound_updatedAt {args : List Value} {terms : Terms Value} {bound : List (String × Value)}
    (h : adminEngine.bind (.time now) args terms = some bound)
    (hmem : ("updated_at", Term.now) ∈ terms)
    (honly : ∀ t ∈ terms, t.1 = "updated_at" → t.2 = .now) (r : Row Value) :
    assign bound r "updated_at" = .time now := by
  have hlookup : bound.lookup "updated_at" = some (.time now) := by
    have hall := Engine.bind_eq_some h
    clear h
    induction hall with
    | nil => simp at hmem
    | @cons t b terms bound hb _ ih =>
        obtain ⟨column, v⟩ := b
        obtain ⟨hcolumn, hvalue⟩ := hb
        by_cases hupdated : column = "updated_at"
        · subst hupdated
          have hterm : t.2 = .now := honly t (by simp) hcolumn
          rw [hterm, hcolumn] at hvalue
          have hv : v = .time now := by
            simpa [Term.eval, adminEngine, readColumn, eq_comm] using hvalue
          simp [hv]
        · have hne : t ≠ ("updated_at", Term.now) := by
            rintro rfl
            exact hupdated hcolumn.symm
          have hrest : ("updated_at", Term.now) ∈ terms := by
            rcases List.mem_cons.mp hmem with heq | hrest
            · exact absurd heq.symm hne
            · exact hrest
          rw [List.lookup_cons, beq_false_of_ne (Ne.symm hupdated)]
          exact ih hrest fun t ht => honly t (List.mem_cons_of_mem _ ht)
  rw [assign, hlookup]
  rfl

theorem selects_owner (column : String) (v : Value) :
    adminEngine.selects [(column, v)] = fun r => (r column).same v := by
  funext r
  simp [Engine.selects, adminEngine]

theorem hasRows_eq (db : AdminDb) (table : AdminTable) {v : Value}
    (hv : readColumn table.ownerColumn (.text tenantID) = some v) :
    db.hasRows table tenantID = (db table).any fun r => (r table.ownerColumn).same v := by
  simp [AdminDb.hasRows, hv]

theorem update_tenants_spec (tenantID : String) {args : List Value} {sets : Terms Value}
    {k count : Nat}
    (hexec : adminEngine.exec (.time now) args db
      (.update .tenants sets [("id", .param (k + 1))]) = some (count, db'))
    (harg : args[k]? = some (.text tenantID)) (hmem : ("updated_at", Term.now) ∈ sets)
    (honly : ∀ t ∈ sets, t.1 = "updated_at" → t.2 = .now) :
    StampedWrites now .tenants db db' ∧
      (db.hasRows .tenants tenantID = true → ∃ r ∈ db' .tenants, r "updated_at" = .time now) ∧
      (db.hasRows .tenants tenantID = false → db' = db) := by
  simp only [Engine.exec] at hexec
  split at hexec
  · next bsets bconds hsets hconds =>
      split at hexec
      · obtain ⟨v, hv, rfl⟩ := bind_owner tenantID harg hconds
        obtain ⟨-, rfl⟩ := Prod.mk.inj (Option.some.inj hexec)
        have hreplace := writes_replace db .tenants _ (update_eq db .tenants bsets [("id", v)])
          (bound_updatedAt hsets hmem honly)
        rw [selects_owner] at hreplace
        rw [hasRows_eq db .tenants hv]
        refine ⟨hreplace.1, hreplace.2, ?_⟩
        intro hnone
        rw [update_eq db .tenants]
        funext u
        split
        · next hu =>
            subst hu
            have hsame : ∀ r ∈ db .tenants, (if adminEngine.selects [("id", v)] r then
                assign bsets r else r) = r := by
              intro r hr
              have hother := List.any_eq_false.mp hnone r hr
              rw [selects_owner]
              exact if_neg hother
            exact (List.map_congr_left hsame).trans (List.map_id _)
        · rfl
      · simp at hexec
  · simp at hexec

theorem delete_spec {count : Nat} (howner : table.ownerColumn = "tenant_id")
    (hreferences : ∀ ref ∈ adminReferences, ref.parent ≠ table)
    (hexec : adminEngine.exec (.time now) [.text tenantID] db
      (.delete table [("tenant_id", .param 1)]) = some (count, db')) :
    Drops table db db' ∧
      (db.hasRows table tenantID = true → ∃ r ∈ db table, r ∉ db' table) ∧
      (db.hasRows table tenantID = false → db' = db) := by
  simp only [Engine.exec] at hexec
  split at hexec
  · next bconds hconds =>
      obtain ⟨v, hv, rfl⟩ := bind_owner tenantID (n := 0) rfl hconds
      obtain ⟨-, rfl⟩ := Prod.mk.inj (Option.some.inj hexec)
      rw [delete_eq hreferences, selects_owner]
      have hrows := hasRows_eq db table (by rw [howner]; exact hv)
      rw [howner] at hrows
      rw [hrows]
      refine ⟨⟨fun u hu => if_neg hu, ?_⟩, ?_, ?_⟩
      · intro r hr
        rw [if_pos rfl] at hr
        exact (List.mem_filter.mp hr).1
      · intro hany
        obtain ⟨r, hr, hselected⟩ := List.any_eq_true.mp hany
        refine ⟨r, hr, ?_⟩
        intro hleft
        simp [hselected] at hleft
      · intro hnone
        funext u
        split
        · next hu =>
            subst hu
            rw [List.filter_eq_self]
            intro r hr
            simpa using List.any_eq_false.mp hnone r hr
        · rfl
  · simp at hexec

theorem newRow_updatedAt {id : String} {values : List (String × Value)}
    (h : "updated_at" ∉ values.map Prod.fst) :
    table.newRow id now values "updated_at" = .time now := by
  have hnone : values.lookup "updated_at" = none := by
    rw [List.lookup_eq_none_iff]
    intro p hp
    simp only [bne_iff_ne, ne_eq]
    intro heq
    exact h (List.mem_map.mpr ⟨p, hp, heq.symm⟩)
  rw [AdminTable.newRow, if_neg (by decide), hnone]
  cases table <;> rfl

theorem tenantUpdate_sets (tenantID name slug : String) :
    ("updated_at", Term.now) ∈ (tenantUpdate tenantID name slug).sets ∧
      ∀ t ∈ (tenantUpdate tenantID name slug).sets, t.1 = "updated_at" → t.2 = .now := by
  by_cases hname : name = "" <;> by_cases hslug : slug = "" <;>
    simp [tenantUpdate, Builder.setText, Builder.set, Builder.cond, hname, hslug]

theorem tenantUpdate_conds (tenantID name slug : String) :
    ∃ k, (tenantUpdate tenantID name slug).conds = [("id", .param (k + 1))] ∧
      (tenantUpdate tenantID name slug).args[k]? = some (.text tenantID) := by
  by_cases hname : name = "" <;> by_cases hslug : slug = "" <;>
    simp [tenantUpdate, Builder.setText, Builder.set, Builder.cond, hname, hslug]

theorem elim_ok {x : Option AdminDb} (h : x.elim (Except.error Err.driver) .ok = .ok db') :
    x = some db' := by
  cases x with
  | none => simp at h
  | some y => simpa using h

variable {cfg : ProvisionConfig} {o : StatementOutcome} {s : ProvisionStep}

theorem provider_fails (p : ProvisionedProvider) :
    (ProvisionStep.provider p).effect cfg tenantID o db ≠ .ok db' := by
  intro h
  simp only [ProvisionStep.effect] at h
  split at h
  · simp at h
  · next encrypted hencrypt =>
      have hcast : castJsonb cfg encrypted = none := by
        rw [castJsonb, isJson_encrypt (by decide) hencrypt]
        rfl
      simp [hcast] at h

theorem effect_writes (hdeletes : s.deletes = false) (h : s.effect cfg tenantID o db = .ok db') :
    StampedWrites o.now s.table db db' ∧
      (¬s.Idle tenantID db → ∃ r ∈ db' s.table, r "updated_at" = .time o.now) ∧
      (s.Idle tenantID db → db' = db) := by
  cases s with
  | tenant name slug =>
      simp only [ProvisionStep.effect] at h
      split at h
      · next count db₁ hexec =>
          obtain rfl := Except.ok.inj h
          obtain ⟨k, hconds, harg⟩ := tenantUpdate_conds tenantID name slug
          rw [hconds] at hexec
          obtain ⟨hmem, honly⟩ := tenantUpdate_sets tenantID name slug
          have hspec := update_tenants_spec tenantID hexec harg hmem honly
          simpa [ProvisionStep.Idle, ProvisionStep.table] using hspec
      · simp at h
  | settings fields =>
      simp only [ProvisionStep.effect] at h
      split at h
      · next count db₁ hexec =>
          obtain rfl := Except.ok.inj h
          have hspec := update_tenants_spec tenantID (k := 1) hexec rfl (by simp)
            (by simp)
          simpa [ProvisionStep.Idle, ProvisionStep.table] using hspec
      · simp at h
  | features identifiers =>
      obtain ⟨tenant, -, hupsert⟩ := Option.bind_eq_some_iff.mp (elim_ok h)
      have htime : ∀ row ∈ featureRows db o tenant identifiers, row "updated_at" = .time o.now := by
        intro row hrow
        obtain ⟨i, hi, rfl⟩ := List.mem_mapIdx.mp hrow
        exact newRow_updatedAt (by simp)
      have hwrites := writes_upsertAll hupsert htime (by decide)
      have hnil : featureRows db o tenant identifiers = [] ↔
          ((db .featureCatalog).any fun f => (f "status").same (.text "active")) = false := by
        simp [featureRows, List.filter_eq_nil_iff]
      refine ⟨hwrites.1, fun hidle => hwrites.2 fun hrows => hidle (hnil.mp hrows), ?_⟩
      intro hidle
      rw [hnil.mpr hidle] at hupsert
      simpa [AdminDb.upsertAll, eq_comm] using hupsert
  | channel c =>
      obtain ⟨tenant, -, hupsert⟩ := Option.bind_eq_some_iff.mp (elim_ok h)
      have hwrites := writes_upsert hupsert (newRow_updatedAt (by simp)) (by decide)
      exact ⟨hwrites.1, fun _ => hwrites.2, False.elim⟩
  | provider p => exact absurd h (provider_fails p)
  | template t =>
      obtain ⟨tenant, -, hupsert⟩ := Option.bind_eq_some_iff.mp (elim_ok h)
      have hwrites := writes_upsert hupsert (newRow_updatedAt (by simp)) (by decide)
      exact ⟨hwrites.1, fun _ => hwrites.2, False.elim⟩
  | deleteProviders => simp [ProvisionStep.deletes] at hdeletes
  | deleteTemplates => simp [ProvisionStep.deletes] at hdeletes

theorem effect_drops (hdeletes : s.deletes = true) (h : s.effect cfg tenantID o db = .ok db') :
    Drops s.table db db' ∧ (¬s.Idle tenantID db → ∃ r ∈ db s.table, r ∉ db' s.table) ∧
      (s.Idle tenantID db → db' = db) := by
  cases s with
  | deleteProviders =>
      simp only [ProvisionStep.effect] at h
      split at h
      · next count db₁ hexec =>
          obtain rfl := Except.ok.inj h
          have hspec := delete_spec rfl (by decide) hexec
          simpa [ProvisionStep.Idle, ProvisionStep.table] using hspec
      · simp at h
  | deleteTemplates =>
      simp only [ProvisionStep.effect] at h
      split at h
      · next count db₁ hexec =>
          obtain rfl := Except.ok.inj h
          have hspec := delete_spec rfl (by decide) hexec
          simpa [ProvisionStep.Idle, ProvisionStep.table] using hspec
      · simp at h
  | tenant name slug => simp [ProvisionStep.deletes] at hdeletes
  | settings fields => simp [ProvisionStep.deletes] at hdeletes
  | features identifiers => simp [ProvisionStep.deletes] at hdeletes
  | channel c => simp [ProvisionStep.deletes] at hdeletes
  | provider p => simp [ProvisionStep.deletes] at hdeletes
  | template t => simp [ProvisionStep.deletes] at hdeletes

def Stamped (env : Nat → StatementOutcome) (r : Row Value) : Prop :=
  ∃ n, r "updated_at" = .time (env n).now

/-- The clock readings of the request come after every time in `updated_at`. -/
def Later (env : Nat → StatementOutcome) (db : AdminDb) : Prop :=
  ∀ n table r, r ∈ db table → ∀ t, r "updated_at" = .time t → t < (env n).now

namespace ProvisionStep

/-- What shows that a statement has done something: rows that are gone, or a row with the time. -/
def Mark (env : Nat → StatementOutcome) (db₀ : AdminDb) (x : ProvisionStep) (db : AdminDb) : Prop :=
  if x.deletes then ∃ r ∈ db₀ x.table, r ∉ db x.table else ∃ r ∈ db x.table, Stamped env r

/-- A statement that deletes from a table stands behind none that writes rows of it. -/
def Before (x y : ProvisionStep) : Prop :=
  x.table = y.table → y.deletes = true → x.deletes = true

end ProvisionStep

variable {env : Nat → StatementOutcome} {db₀ : AdminDb}

theorem Later.not_stamped (h : Later env db) {r : Row Value} (hr : r ∈ db table) :
    ¬Stamped env r := by
  rintro ⟨n, htime⟩
  exact lt_irrefl _ (h n table r hr _ htime)

theorem exec_ok {n : Nat} (h : s.exec cfg tenantID env n db = .ok db') :
    s.effect cfg tenantID (env n) db = .ok db' := by
  unfold ProvisionStep.exec at h
  split at h
  · simp at h
  · exact h

theorem mark_keeps (hlater : Later env db₀) {n : Nat} {x y : ProvisionStep} (hbefore : x.Before y)
    (hmark : x.Mark env db₀ db) (h : y.exec cfg tenantID env n db = .ok db') :
    x.Mark env db₀ db' := by
  have heffect := exec_ok h
  by_cases htable : x.table = y.table
  · cases hy : y.deletes with
    | true =>
        have hx := hbefore htable hy
        obtain ⟨hdrops, -⟩ := effect_drops hy heffect
        simp only [ProvisionStep.Mark, hx, if_true] at hmark ⊢
        obtain ⟨r, hr, hgone⟩ := hmark
        refine ⟨r, hr, fun hback => hgone ?_⟩
        rw [htable] at hback ⊢
        exact hdrops.rows r hback
    | false =>
        obtain ⟨hwrites, -⟩ := effect_writes hy heffect
        rw [← htable] at hwrites
        unfold ProvisionStep.Mark at hmark ⊢
        split
        · next hx =>
            rw [if_pos hx] at hmark
            obtain ⟨r, hr, hgone⟩ := hmark
            refine ⟨r, hr, fun hback => ?_⟩
            rcases hwrites.rows r hback with hold | htime
            · exact hgone hold
            · exact hlater.not_stamped hr ⟨n, htime⟩
        · next hx =>
            rw [if_neg hx] at hmark
            obtain ⟨r, hr, hstamped⟩ := hmark
            rcases hwrites.kept r hr with hkept | ⟨r', hr', htime⟩
            · exact ⟨r, hkept, hstamped⟩
            · exact ⟨r', hr', n, htime⟩
  · have hsame : db' x.table = db x.table := by
      cases hy : y.deletes with
      | true => exact (effect_drops hy heffect).1.frame _ htable
      | false => exact (effect_writes hy heffect).1.frame _ htable
    unfold ProvisionStep.Mark at hmark ⊢
    rw [hsame]
    exact hmark

theorem provisioned_table (h : db.provisioned = db'.provisioned) (s : ProvisionStep) :
    db s.table = db' s.table := by
  simp only [AdminDb.provisioned, Prod.mk.injEq] at h
  obtain ⟨htenants, hfeatures, hchannels, hproviders, htemplates⟩ := h
  cases s <;> assumption

theorem lasting (cfg : ProvisionConfig) (tenantID : String) (hlater : Later env db) :
    Lasting (fun n s db => ProvisionStep.exec cfg tenantID env n s db) AdminDb.provisioned
      ProvisionStep.Before (ProvisionStep.Idle tenantID) (ProvisionStep.Mark env db) db where
  same n t db' h hidle := by
    cases ht : t.deletes with
    | true => exact (effect_drops ht (exec_ok h)).2.2 hidle
    | false => exact (effect_writes ht (exec_ok h)).2.2 hidle
  marks n t db' h hidle := by
    unfold ProvisionStep.Mark
    split
    · next ht => exact (effect_drops ht (exec_ok h)).2.1 hidle
    · next ht =>
        have ht : t.deletes = false := by simpa using ht
        obtain ⟨r, hr, htime⟩ := (effect_writes ht (exec_ok h)).2.1 hidle
        exact ⟨r, hr, n, htime⟩
  keeps n x t u u' hbefore hmark h := mark_keeps hlater hbefore hmark h
  differs x u hmark hsame := by
    have htable := provisioned_table hsame x
    unfold ProvisionStep.Mark at hmark
    split at hmark
    · obtain ⟨r, hr, hgone⟩ := hmark
      rw [htable] at hgone
      exact hgone hr
    · obtain ⟨r, hr, hstamped⟩ := hmark
      rw [htable] at hr
      exact hlater.not_stamped hr hstamped

theorem before_of_table {x y : ProvisionStep} (h : x.table ≠ y.table ∨ y.deletes = false) :
    x.Before y := by
  intro htable hdeletes
  rcases h with h | h
  · exact absurd htable h
  · rw [h] at hdeletes
    exact absurd hdeletes (by decide)

theorem ordered_of_writes {steps : List ProvisionStep} (h : ∀ y ∈ steps, y.deletes = false) :
    steps.Pairwise ProvisionStep.Before :=
  List.pairwise_of_forall_mem_list fun _ _ y hy => before_of_table (.inr (h y hy))

theorem ordered_cons {d : ProvisionStep} {steps : List ProvisionStep}
    (h : ∀ y ∈ steps, y.deletes = false) : (d :: steps).Pairwise ProvisionStep.Before :=
  List.pairwise_cons.mpr ⟨fun y hy => before_of_table (.inr (h y hy)), ordered_of_writes h⟩

theorem ordered_append {steps rest : List ProvisionStep} {tables : List AdminTable}
    {table : AdminTable} (hsteps : steps.Pairwise ProvisionStep.Before)
    (hrest : rest.Pairwise ProvisionStep.Before) (hfirst : ∀ x ∈ steps, x.table ∈ tables)
    (hsecond : ∀ y ∈ rest, y.table = table) (hnot : table ∉ tables) :
    (steps ++ rest).Pairwise ProvisionStep.Before := by
  refine List.pairwise_append.mpr ⟨hsteps, hrest, fun x hx y hy => before_of_table (.inl ?_)⟩
  rw [hsecond y hy]
  intro heq
  exact hnot (heq ▸ hfirst x hx)

def frontSteps (req : TenantProvisioningRequest) : List ProvisionStep :=
  tenantSteps req ++ settingsSteps req ++ featureSteps req ++ req.channels.map .channel

theorem mem_frontSteps {req : TenantProvisioningRequest} {x : ProvisionStep}
    (h : x ∈ frontSteps req) :
    x.deletes = false ∧ x.table ∈ [AdminTable.tenants, .tenantFeatures, .tenantChannels] := by
  simp only [frontSteps, List.mem_append, List.mem_map] at h
  rcases h with ((h | h) | h) | ⟨c, -, rfl⟩
  · unfold tenantSteps at h
    split at h
    · simp at h
    · obtain rfl := List.mem_singleton.mp h
      simp [ProvisionStep.deletes, ProvisionStep.table]
  · unfold settingsSteps at h
    split at h
    · simp at h
    · obtain rfl := List.mem_singleton.mp h
      simp [ProvisionStep.deletes, ProvisionStep.table]
  · unfold featureSteps at h
    split at h
    · simp at h
    · obtain rfl := List.mem_singleton.mp h
      simp [ProvisionStep.deletes, ProvisionStep.table]
  · simp [ProvisionStep.deletes, ProvisionStep.table]

theorem providerSteps_ordered (req : TenantProvisioningRequest) :
    (providerSteps req).Pairwise ProvisionStep.Before ∧
      ∀ y ∈ providerSteps req, y.table = .tenantProviderConfigs := by
  unfold providerSteps
  split
  · simp
  · constructor
    · apply ordered_cons
      intro y hy
      obtain ⟨p, -, rfl⟩ := List.mem_map.mp hy
      rfl
    · intro y hy
      rcases List.mem_cons.mp hy with rfl | hy
      · rfl
      · obtain ⟨p, -, rfl⟩ := List.mem_map.mp hy
        rfl

theorem templateSteps_ordered (req : TenantProvisioningRequest) :
    (templateSteps req).Pairwise ProvisionStep.Before ∧
      ∀ y ∈ templateSteps req, y.table = .notificationTemplates := by
  unfold templateSteps
  split
  · simp
  · constructor
    · apply ordered_cons
      intro y hy
      obtain ⟨t, -, rfl⟩ := List.mem_map.mp hy
      rfl
    · intro y hy
      rcases List.mem_cons.mp hy with rfl | hy
      · rfl
      · obtain ⟨t, -, rfl⟩ := List.mem_map.mp hy
        rfl

theorem steps_ordered (req : TenantProvisioningRequest) :
    (tenantSteps req ++ provisioningSteps req).Pairwise ProvisionStep.Before := by
  have hsteps : tenantSteps req ++ provisioningSteps req =
      frontSteps req ++ providerSteps req ++ templateSteps req := by
    simp only [provisioningSteps, frontSteps, List.append_assoc]
  obtain ⟨hproviders, hprovidersTable⟩ := providerSteps_ordered req
  obtain ⟨htemplates, htemplatesTable⟩ := templateSteps_ordered req
  have hfront := ordered_of_writes fun y (hy : y ∈ frontSteps req) => (mem_frontSteps hy).1
  have hboth := ordered_append hfront hproviders (fun x hx => (mem_frontSteps hx).2)
    hprovidersTable (by decide)
  have htables : ∀ x ∈ frontSteps req ++ providerSteps req, x.table ∈ [AdminTable.tenants,
      .tenantFeatures, .tenantChannels, .tenantProviderConfigs] := by
    intro x hx
    rcases List.mem_append.mp hx with hx | hx
    · exact List.mem_append_left [AdminTable.tenantProviderConfigs] (mem_frontSteps hx).2
    · rw [hprovidersTable x hx]
      decide
  rw [hsteps]
  exact ordered_append hboth htemplates htables htemplatesTable (by decide)

/-- A request to `CreateTenant` or `UpdateTenant`; a body that does not decode is `none`. -/
inductive TenantRequest where
  | create (body : Option TenantProvisioningRequest)
  | update (tenantID : String) (body : Option TenantProvisioningRequest)

def serveTenant (cfg : ProvisionConfig) (env : Nat → StatementOutcome) (p : Principal) :
    TenantRequest → AdminDb → JsonResponse × AdminDb
  | .create body, db => createTenant cfg env p body db
  | .update tenantID body, db => updateTenant cfg env p tenantID body db

/-- An answer with an error leaves the five tables as they were. -/
def ProvisionsAtomically (cfg : ProvisionConfig) (env : Nat → StatementOutcome) (p : Principal)
    (r : TenantRequest) (db : AdminDb) : Prop :=
  400 ≤ (serveTenant cfg env p r db).1.status →
    (serveTenant cfg env p r db).2.provisioned = db.provisioned

/-- Of a request that the handler takes up, no statement fails behind the insertion of a new
tenant, and before a statement that fails no other had rows to write. -/
def TenantRequest.StopsIdle (cfg : ProvisionConfig) (env : Nat → StatementOutcome) (p : Principal)
    (db : AdminDb) : TenantRequest → Prop
  | .create body => ∀ req id db₁, p.isPlatform = true → body = some req → req.name ≠ "" →
      req.slug ≠ "" → insertTenant (env 0) req.name req.slug db = .ok (id, db₁) →
      ∀ done s rest, provisioningSteps req = done ++ s :: rest →
        ¬FailsAfter (ProvisionStep.exec cfg id env) 1 done s db₁
  | .update tenantID body => ∀ req, p.isPlatform = true → body = some req →
      ∀ done s rest, tenantSteps req ++ provisioningSteps req = done ++ s :: rest →
        FailsAfter (ProvisionStep.exec cfg tenantID env) 0 done s db →
        ∀ x ∈ done, x.Idle tenantID db

variable {p : Principal} {req : TenantProvisioningRequest}

/-- The answer of `UpdateTenant` is an error exactly when a statement fails, and then the tables
are as the statements left them. -/
theorem updateTenant_spec (cfg : ProvisionConfig) (env : Nat → StatementOutcome) (db : AdminDb)
    (tenantID : String) (req : TenantProvisioningRequest) (hp : p.isPlatform = true) :
    let run := executeAll (ProvisionStep.exec cfg tenantID env) 0
      (tenantSteps req ++ provisioningSteps req) db
    (400 ≤ (updateTenant cfg env p tenantID (some req) db).1.status ↔ ∃ e, run.1 = .error e) ∧
      ∀ e, run.1 = .error e → (updateTenant cfg env p tenantID (some req) db).2 = run.2 := by
  intro run
  unfold updateTenant
  rw [if_pos hp]
  dsimp only
  cases hfirst : executeAll (ProvisionStep.exec cfg tenantID env) 0 (tenantSteps req) db with
  | mk result db₁ =>
      cases result with
      | error e =>
          have hrun : run = (.error e, db₁) := executeAll_append_error _ hfirst
          rw [hrun]
          by_cases hdup : isDuplicate cfg e = true <;> simp [hdup, JsonResponse.error]
      | ok _ =>
          have hrun : run =
              applyTenantProvisioning cfg env (tenantSteps req).length tenantID req db₁ := by
            have happend := executeAll_append_ok (provisioningSteps req) hfirst
            rw [Nat.zero_add] at happend
            exact happend
          rw [hrun]
          dsimp only
          cases hrest : applyTenantProvisioning cfg env (tenantSteps req).length tenantID req db₁ with
          | mk result db₂ => cases result <;> simp [JsonResponse.message]

theorem insertTenant_ok {id name slug : String}
    (h : insertTenant o name slug db = .ok (id, db')) :
    ∃ r ∈ db' .tenants, r "updated_at" = .time o.now := by
  unfold insertTenant at h
  split at h
  · simp at h
  · split at h
    · next db₁ hinsert =>
        obtain ⟨-, rfl⟩ := Prod.mk.inj (Except.ok.inj h)
        exact (writes_insert hinsert (newRow_updatedAt (by simp))).2
    · simp at h

theorem created_tenant_stays (hlater : Later env db) {id name slug : String} {db₁ : AdminDb}
    {n : Nat} (h : insertTenant (env 0) name slug db = .ok (id, db₁)) (steps : List ProvisionStep) :
    (executeAll (ProvisionStep.exec cfg id env) n steps db₁).2.provisioned ≠ db.provisioned := by
  obtain ⟨r, hr, htime⟩ := insertTenant_ok h
  have hlasting := lasting cfg id hlater
  have hmark : (ProvisionStep.settings none).Mark env db db₁ := ⟨r, hr, 0, htime⟩
  have hbefore : ∀ y ∈ steps, (ProvisionStep.settings none).Before y := by
    intro y _
    cases y <;> simp [ProvisionStep.Before, ProvisionStep.table, ProvisionStep.deletes]
  exact hlasting.differs _ _ (hlasting.mark_executeAll hbefore hmark)

theorem createTenant_spec (cfg : ProvisionConfig) {id : String} {db₁ : AdminDb}
    (hp : p.isPlatform = true) (hrequired : ¬(req.name = "" ∨ req.slug = ""))
    (hinsert : insertTenant (env 0) req.name req.slug db = .ok (id, db₁)) :
    let run := executeAll (ProvisionStep.exec cfg id env) 1 (provisioningSteps req) db₁
    (400 ≤ (createTenant cfg env p (some req) db).1.status ↔ ∃ e, run.1 = .error e) ∧
      ∀ e, run.1 = .error e → (createTenant cfg env p (some req) db).2 = run.2 := by
  intro run
  simp only [createTenant, if_pos hp, if_neg hrequired, hinsert]
  have hrun : run = applyTenantProvisioning cfg env 1 id req db₁ := rfl
  rw [hrun]
  cases hrest : applyTenantProvisioning cfg env 1 id req db₁ with
  | mk result db₂ => cases result <;> simp

theorem createTenant_refused {e : Err}
    (hinsert : insertTenant (env 0) req.name req.slug db = .error e) :
    (createTenant cfg env p (some req) db).2 = db := by
  simp only [createTenant, hinsert]
  by_cases hp : p.isPlatform = true
  · by_cases hrequired : req.name = "" ∨ req.slug = ""
    · simp [hp, hrequired]
    · by_cases hdup : isDuplicate cfg e = true <;> simp [hp, hrequired, hdup]
  · simp [hp]

theorem createTenant_iff (hlater : Later env db) (body : Option TenantProvisioningRequest) :
    ProvisionsAtomically cfg env p (.create body) db ↔
      (TenantRequest.create body).StopsIdle cfg env p db := by
  unfold ProvisionsAtomically serveTenant TenantRequest.StopsIdle
  by_cases hp : p.isPlatform = true
  · cases body with
    | none => simp [createTenant, hp]
    | some req =>
        by_cases hrequired : req.name = "" ∨ req.slug = ""
        · apply iff_of_true
          · simp [createTenant, hp, hrequired]
          · intro req' id db₁ _ hreq hname hslug
            obtain rfl := Option.some.inj hreq
            exact absurd hrequired (by simp [hname, hslug])
        · have hboth : req.name ≠ "" ∧ req.slug ≠ "" := by simpa using hrequired
          cases hinsert : insertTenant (env 0) req.name req.slug db with
          | error e =>
              apply iff_of_true
              · intro _
                rw [createTenant_refused hinsert]
              · intro req' id db₁ _ hreq _ _ hok
                obtain rfl := Option.some.inj hreq
                rw [hinsert] at hok
                simp at hok
          | ok created =>
              obtain ⟨id, db₁⟩ := created
              obtain ⟨hstatus, hleft⟩ := createTenant_spec cfg hp hrequired hinsert
              constructor
              · intro hatomic req' id' db₁' _ hreq _ _ hok done s rest hsplit hfails
                obtain rfl := Option.some.inj hreq
                rw [hinsert] at hok
                obtain ⟨rfl, rfl⟩ := Prod.mk.inj (Except.ok.inj hok)
                obtain ⟨s', e, hdone, hfail⟩ := hfails
                have herror := executeAll_fails rest hdone hfail
                rw [← hsplit] at herror
                have hsame := hatomic (hstatus.mpr ⟨e, by rw [herror]⟩)
                rw [hleft e (by rw [herror])] at hsame
                exact created_tenant_stays hlater hinsert _ hsame
              · intro hnever herror
                obtain ⟨e, he⟩ := hstatus.mp herror
                obtain ⟨done, s, rest, hsplit, hfails⟩ := exists_fails_of_error he
                exact absurd hfails
                  (hnever req id db₁ hp rfl hboth.1 hboth.2 hinsert done s rest hsplit)
  · apply iff_of_true
    · simp [createTenant, hp]
    · intro req id db₁ hplatform
      exact absurd hplatform hp

theorem updateTenant_iff (hlater : Later env db) (body : Option TenantProvisioningRequest) :
    ProvisionsAtomically cfg env p (.update tenantID body) db ↔
      (TenantRequest.update tenantID body).StopsIdle cfg env p db := by
  unfold ProvisionsAtomically serveTenant TenantRequest.StopsIdle
  by_cases hp : p.isPlatform = true
  · cases body with
    | none => simp [updateTenant, hp]
    | some req =>
        obtain ⟨hstatus, hleft⟩ := updateTenant_spec cfg env db tenantID req hp
        have hunchanged := (lasting cfg tenantID hlater).unchanged_iff (n := 0) (steps_ordered req)
        constructor
        · intro hatomic req' _ hreq
          obtain rfl := Option.some.inj hreq
          apply hunchanged.mp
          rintro ⟨e, he⟩
          rw [← hleft e he]
          exact hatomic (hstatus.mpr ⟨e, he⟩)
        · intro hidle herror
          obtain ⟨e, he⟩ := hstatus.mp herror
          rw [hleft e he]
          exact hunchanged.mpr (hidle req hp rfl) ⟨e, he⟩
  · apply iff_of_true
    · simp [updateTenant, hp]
    · intro req hplatform
      exact absurd hplatform hp

/-- A provisioning request is all-or-nothing exactly when no statement fails behind one that had
rows to write. -/
theorem provisioning_atomic_iff (hlater : Later env db) (r : TenantRequest) :
    ProvisionsAtomically cfg env p r db ↔ r.StopsIdle cfg env p db := by
  cases r with
  | create body => exact createTenant_iff hlater body
  | update tenantID body => exact updateTenant_iff hlater body

def storedTenantID : String := "00000000-0000-0000-0000-000000000001"

def storedTenant : AdminDb
  | .tenants => [AdminTable.tenants.newRow storedTenantID 1
      [("name", .text "Acme"), ("slug", .text "acme")]]
  | .tenantProviderConfigs => [AdminTable.tenantProviderConfigs.newRow
      "00000000-0000-0000-0000-000000000002" 1 [("tenant_id", .text storedTenantID),
        ("channel", .text "email"), ("provider", .text "smtp"), ("is_default", .bool true)]]
  | _ => []

def sampleProvisionConfig : ProvisionConfig where
  hashSecret := id
  parseDuration := fun _ => none
  errorText := fun e => match e with
    | .text message => message
    | _ => "unexpected error"
  gcm := sampleGcm
  encKey := some sampleEncKey
  jsonValue := .str

def sampleStatements (n : Nat) : StatementOutcome where
  now := 100 + n
  ids := fun i => "00000000-0000-0000-0000-0000000000" ++ toString (10 + n + i)
  nonce := some sampleNonce

theorem storedTenant_later : Later sampleStatements storedTenant := by
  intro n table r hr t htime
  have hone : r "updated_at" = .time 1 := by
    cases table with
    | tenants =>
        obtain rfl := List.mem_singleton.mp hr
        exact newRow_updatedAt (by simp)
    | tenantProviderConfigs =>
        obtain rfl := List.mem_singleton.mp hr
        exact newRow_updatedAt (by simp)
    | _ => simp [storedTenant] at hr
  rw [hone] at htime
  obtain rfl := Value.time.inj htime
  simp only [sampleStatements]
  omega

def renameRequest : TenantProvisioningRequest := ⟨"Acme Ltd", "", none, none, [], none, none⟩

def providersRequest : TenantProvisioningRequest :=
  ⟨"", "", none, none, [], some [⟨"email", "smtp", true⟩], none⟩

theorem rename_is_atomic : ProvisionsAtomically sampleProvisionConfig sampleStatements
    ⟨1, "", true, []⟩ (.update storedTenantID (some renameRequest)) storedTenant := by
  apply (provisioning_atomic_iff storedTenant_later _).mpr
  intro req _ hreq done s rest hsplit _ x hx
  obtain rfl := Option.some.inj hreq
  have hlength := congrArg List.length hsplit
  have hone : (tenantSteps renameRequest ++ provisioningSteps renameRequest).length = 1 := rfl
  have hnil : done = [] := by
    rw [← List.length_eq_zero_iff]
    simp only [hone, List.length_append, List.length_cons] at hlength
    omega
  simp [hnil] at hx

/-- The providers of the tenant are deleted, and the first insertion fails. -/
theorem providers_deleted_by_failure : ¬∀ (cfg : ProvisionConfig) (env : Nat → StatementOutcome)
    (p : Principal) (r : TenantRequest) (db : AdminDb), Later env db →
    ProvisionsAtomically cfg env p r db := by
  intro h
  have hatomic := h sampleProvisionConfig sampleStatements ⟨1, "", true, []⟩
    (.update storedTenantID (some providersRequest)) storedTenant storedTenant_later
  have hstatus : 400 ≤ (serveTenant sampleProvisionConfig sampleStatements ⟨1, "", true, []⟩
      (.update storedTenantID (some providersRequest)) storedTenant).1.status := by decide +kernel
  have hrows := congrArg (fun tables => tables.2.2.2.1.length) (hatomic hstatus)
  revert hrows
  decide +kernel

end NotificationPlatform
