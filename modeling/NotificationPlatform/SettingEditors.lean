import NotificationPlatform.AdminHandlers
import NotificationPlatform.Lib.Run
import NotificationPlatform.Lib.SharedEdits

/-!
# Concurrent updates of tenant settings

`UpdateTenantSettings` reads the configuration of the tenant, sets the fields of its request in
memory and writes the whole document back by a second statement. Any number of such requests run
side by side here, one statement at a time in any order. An update that reads before another one
has written overwrites what that one stored; while this does not happen, all settings are kept.
-/

namespace NotificationPlatform

open Lib Lib.Sql Lib.SharedEdits

def TenantSettings.requested (req : TenantSettings) : List (String × Json) :=
  [("timezone", req.timezone), ("country", req.country), ("default_sender", req.defaultFrom),
   ("default_sms", req.defaultSMS), ("branding_logo", req.brandingLogo)].filterMap
    (fun f => f.2.map fun s => (f.1, .str s)) ++
  (req.metadata.map fun j => ("metadata", j)).toList

/-- The metadata decode into a map: an object with distinct keys, or `null`. Others are dropped
without an error. -/
def TenantSettings.storable (req : TenantSettings) : Prop :=
  match req.metadata with
  | none | some .null => True
  | some (.obj fields) => (fields.map Prod.fst).Nodup
  | some _ => False

def AdminDb.answer (o : AdminOutcome) (c : AdminCall) (db : AdminDb) : AdminReply c × AdminDb :=
  let r := AdminState.call (fun _ => o) c ⟨db, 0⟩
  (r.1, r.2.db)

def driverFailed {α : Type} : Except Err α → Bool
  | .error .driver => true
  | _ => false

structure Editor where
  principal : Principal
  tenantID : String
  req : TenantSettings
  prog : AdminCode JsonResponse

namespace Editor

def start (p : Principal) (tenantID : String) (req : TenantSettings) : Editor :=
  ⟨p, tenantID, req, updateTenantSettings p tenantID req⟩

def resume (ed : Editor) (prog : AdminCode JsonResponse) : Editor := { ed with prog := prog }

def edits (k : String) (ed : Editor) : Bool := Uuid.read ed.tenantID == some k

def reads (ed : Editor) : Bool :=
  match ed.prog.next? with
  | some (.selectRow _ _ _ _) => true
  | _ => false

def writes (ed : Editor) : Bool :=
  match ed.prog.next? with
  | some (.exec _ _) => true
  | _ => false

def fails (ed : Editor) (db : AdminDb) (o : AdminOutcome) : Bool :=
  match ed.prog with
  | .call c _ => driverFailed (db.answer o c).1
  | .ret _ => false

def answered (ed : Editor) : Bool :=
  match ed.prog with
  | .ret r => r.status == 200
  | .call _ _ => false

end Editor

structure EditWorld where
  db : AdminDb
  editors : List Editor

namespace EditWorld

def step (w : EditWorld) (e : Nat × AdminOutcome) : Option EditWorld :=
  match w.editors[e.1]? with
  | some ed =>
      match ed.prog with
      | .call c k =>
          let r := w.db.answer e.2 c
          some ⟨r.2, w.editors.set e.1 (ed.resume (k r.1))⟩
      | .ret _ => none
  | none => none

def Succeeds (w : EditWorld) (e : Nat × AdminOutcome) : Prop :=
  ∀ ed ∈ w.editors[e.1]?, ed.fails w.db e.2 = false

/-- A request for tenant `k` reads the configuration only while no other one has read it and is
yet to write. -/
def Undisturbed (k : String) (w : EditWorld) (e : Nat × AdminOutcome) : Prop :=
  ∀ ed ∈ w.editors[e.1]?, ed.edits k = true → ed.reads = true →
    ∀ other ∈ w.editors, other.edits k = true → other.writes = false

instance (w : EditWorld) (e : Nat × AdminOutcome) : Decidable (w.Succeeds e) :=
  inferInstanceAs (Decidable (∀ ed ∈ w.editors[e.1]?, ed.fails w.db e.2 = false))

instance (k : String) (w : EditWorld) (e : Nat × AdminOutcome) : Decidable (w.Undisturbed k e) :=
  inferInstanceAs (Decidable (∀ ed ∈ w.editors[e.1]?, ed.edits k = true → ed.reads = true →
    ∀ other ∈ w.editors, other.edits k = true → other.writes = false))

theorem exists_run (ok : EditWorld → Nat × AdminOutcome → Prop) [∀ w e, Decidable (ok w e)]
    (w : EditWorld) (es : List (Nat × AdminOutcome)) (p : EditWorld → Bool)
    (h : (execute step (fun w e => decide (ok w e)) w es).any p = true) :
    ∃ w', Run step ok w es w' ∧ p w' = true :=
  Run.exists_of_execute (fun _ _ hok => of_decide_eq_true hok) h

def AtStart (w : EditWorld) : Prop :=
  ∀ ed ∈ w.editors, ed = Editor.start ed.principal ed.tenantID ed.req

end EditWorld

def AdminDb.configOf (db : AdminDb) (k : String) : Option Value :=
  ((db .tenants).find? (adminEngine.selects [("id", .text k)])).map fun row => row "config_json"

/-- The keys of an object are distinct, as they are in a `jsonb` column. -/
def Json.distinct : Json → Prop
  | .obj fields => (fields.map Prod.fst).Nodup
  | _ => True

/-- The configuration of tenant `k` has every setting that a request asked for, and is otherwise
as it was. -/
def EditWorld.Kept (k : String) (config : Json) (w₀ w : EditWorld) : Prop :=
  ∃ final, w.db.configOf k = some (.json final) ∧
    (∀ ed ∈ w₀.editors, ed.edits k = true → ∀ f ∈ ed.req.requested,
      final.field? f.1 = some f.2) ∧
    ∀ key, (∀ ed ∈ w₀.editors, ed.edits k = true → key ∉ ed.req.requested.map Prod.fst) →
      final.field? key = config.field? key

abbrev configRead (tenantID : String) : AdminCall :=
  .selectRow .tenants ["config_json"] [("id", .param 1)] [.text tenantID]

abbrev configUpdate : Sql.Stmt AdminTable Value :=
  .update .tenants [("config_json", .param 1), ("updated_at", .now)] [("id", .param 2)]

abbrev configWrite (config : Json) (tenantID : String) : AdminCall :=
  .exec configUpdate [.json config, .text tenantID]

section

variable {db : AdminDb} {o : AdminOutcome} {k t : String} {config : Value}

theorem answer_eq (o : AdminOutcome) (c : AdminCall) (db : AdminDb) :
    db.answer o c = (.error .driver, db) ∨
    (∃ e, db.answer o c = (.error e, db) ∧ db.perform o c = .error e) ∨
    ∃ r db', db.answer o c = (.ok r, db') ∧ db.perform o c = .ok (r, db') := by
  unfold AdminDb.answer AdminState.call
  cases hfail : o.fail with
  | true => exact .inl (by simp [hfail])
  | false =>
      cases hp : db.perform o c with
      | error e => exact .inr (.inl ⟨e, by simp [hfail, hp]⟩)
      | ok r => exact .inr (.inr ⟨r.1, r.2, by simp [hfail, hp]⟩)

theorem answer_selectRow_db (table : AdminTable) (columns : List String) (conds : Terms Value)
    (args : List Value) :
    (db.answer o (.selectRow table columns conds args)).2 = db := by
  rcases answer_eq o (.selectRow table columns conds args) db with h | ⟨e, h, -⟩ | ⟨r, db', h, hp⟩
  · rw [h]
  · rw [h]
  · rw [h]
    simp only [AdminDb.perform] at hp
    split at hp
    · simp at hp
    · split at hp
      · obtain ⟨-, rfl⟩ := Prod.mk.inj (Except.ok.inj hp)
        rfl
      · simp at hp

private theorem bind_id (ht : Uuid.read t = some k) (values : List Value) (clock : Value) :
    adminEngine.bind clock (values ++ [.text t]) [("id", .param (values.length + 1))] =
      some [("id", .text k)] := by
  simp [Engine.bind, Term.eval, adminEngine, readColumn, uuidColumns, ht]

theorem answer_selectRow (ht : Uuid.read t = some k) (hconfig : db.configOf k = some config)
    (hok : (db.answer o (configRead t)).1 ≠ .error .driver) :
    (db.answer o (configRead t)).1 = .ok [config] := by
  obtain ⟨row, hrow, rfl⟩ := Option.map_eq_some_iff.mp hconfig
  have hbind := bind_id ht [] (.time o.now)
  have hperform : db.perform o (configRead t) = .ok ([row "config_json"], db) := by
    simp only [List.nil_append, List.length_nil, Nat.zero_add] at hbind
    simp [AdminDb.perform, hbind, hrow]
  rcases answer_eq o (configRead t) db with h | ⟨e, h, hp⟩ | ⟨r, db', h, hp⟩
  · exact absurd (by rw [h]) hok
  · rw [hperform] at hp
    simp at hp
  · rw [hperform] at hp
    rw [h]
    exact congrArg Except.ok (Prod.mk.inj (Except.ok.inj hp)).1.symm

private theorem configOf_exec {k' : String} (ht : Uuid.read t = some k') {j : Json} {n : Nat}
    {db' : AdminDb} (hexec : adminEngine.exec (.time o.now) [.json j, .text t] db configUpdate =
      some (n, db')) (hconfig : db.configOf k = some config) :
    db'.configOf k = some (if k' = k then .json j else config) := by
  have hconds := bind_id ht [.json j] (.time o.now)
  simp only [List.singleton_append, List.length_singleton, Nat.reduceAdd] at hconds
  have hsets : adminEngine.bind (.time o.now) [.json j, .text t]
      [("config_json", .param 1), ("updated_at", .now)] =
        some [("config_json", .json j), ("updated_at", .time o.now)] := by
    simp [Engine.bind, Term.eval, adminEngine, readColumn]
  obtain ⟨row, hrow, rfl⟩ := Option.map_eq_some_iff.mp hconfig
  rcases adminEngine.exec_cases hexec with ⟨table, sets, conds, bsets, bconds, hs, hbsets,
    hbconds, rfl⟩ | ⟨_, _, _, hs, _⟩
  · obtain ⟨rfl, rfl, rfl⟩ : .tenants = table ∧ _ = sets ∧ _ = conds := by
      simpa [configUpdate] using hs
    obtain rfl := Option.some.inj (hsets.symm.trans hbsets)
    obtain rfl := Option.some.inj (hconds.symm.trans hbconds)
    have hid : (adminEngine.selects [("id", .text k)] ∘ fun row : Row Value =>
        if adminEngine.selects [("id", .text k')] row then
          assign [("config_json", .json j), ("updated_at", .time o.now)] row else row) =
        adminEngine.selects [("id", .text k)] := by
      funext row
      rw [Function.comp_apply]
      split
      · apply Engine.selects_congr
        intro column hcolumn
        obtain rfl : column = "id" := by simpa using hcolumn
        exact assign_of_notMem (by simp)
      · rfl
    rw [AdminDb.configOf, Engine.filterMap_updated, List.find?_map, hid, hrow]
    have hselected : (row "id").same (.text k) = true := by
      simpa [Engine.selects, adminEngine] using List.find?_some hrow
    by_cases hk : k' = k
    · subst k'
      have hsel : adminEngine.selects [("id", .text k)] row = true := List.find?_some hrow
      simp [hsel, assign]
    · have hother : adminEngine.selects [("id", .text k')] row = false := by
        by_contra hsel
        rw [Bool.not_eq_false] at hsel
        have hsame : (row "id").same (.text k') = true := by
          simpa [Engine.selects, adminEngine] using hsel
        have heq := (Value.eq_of_same hsame).symm.trans (Value.eq_of_same hselected)
        exact hk (Value.text.inj heq)
      simp [hother, hk]
  · simp [configUpdate] at hs

private theorem answer_configUpdate {j : Json} (hconfig : db.configOf k = some config)
    (hok : (db.answer o (configWrite j t)).1 ≠ .error .driver) :
    (∃ n, (db.answer o (configWrite j t)).1 = .ok n) ∧
      (db.answer o (configWrite j t)).2.configOf k =
        some (if Uuid.read t = some k then .json j else config) := by
  rcases answer_eq o (configWrite j t) db with h | ⟨e, h, hp⟩ |
    ⟨n, db', h, hp⟩
  · exact absurd (by rw [h]) hok
  · simp only [AdminDb.perform] at hp
    split at hp
    · simp at hp
    · obtain rfl := Except.error.inj hp
      exact absurd (by rw [h]) hok
  · rw [h]
    refine ⟨⟨n, rfl⟩, ?_⟩
    simp only [AdminDb.perform] at hp
    split at hp
    · next r hexec =>
        obtain rfl := Except.ok.inj hp
        cases ht : Uuid.read t with
        | none =>
            have hnone : adminEngine.bind (.time o.now) [.json j, .text t] [("id", .param 2)] =
                none := by
              simp [Engine.bind, Term.eval, adminEngine, readColumn, uuidColumns, ht]
            rcases adminEngine.exec_cases hexec with ⟨_, _, conds, _, _, hs, -, hbconds, -⟩ |
              ⟨_, _, _, hs, _⟩
            · obtain rfl : [("id", .param 2)] = conds := by
                simpa [configUpdate] using (Sql.Stmt.update.inj hs).2.2
              rw [hnone] at hbconds
              simp at hbconds
            · simp [configUpdate] at hs
        | some k' =>
            rw [configOf_exec ht hexec hconfig]
            simp
    · simp at hp

private theorem configOf_answer_audit (event : AuditEvent) :
    (db.answer o (.audit event)).2.configOf k = db.configOf k := by
  rcases answer_eq o (.audit event) db with h | ⟨e, h, -⟩ | ⟨r, db', h, hp⟩
  · rw [h]
  · rw [h]
  · rw [h]
    simp only [AdminDb.perform] at hp
    split at hp
    · next db'' hinsert =>
        obtain ⟨-, rfl⟩ := Prod.mk.inj (Except.ok.inj hp)
        obtain ⟨tenant, -, hrow⟩ := AdminDb.insertAudit_eq_some hinsert
        obtain ⟨-, rfl⟩ := adminEngine.insert_cases hrow
        simp [AdminDb.configOf]
    · simp at hp

end

def settingsOf (config : Json) : GoMap := existingSettings (.ok [.json config])

def TenantSettings.merge (req : TenantSettings) (config : Json) : Json :=
  match settingsOf config, req.fields with
  | none, [] => .null
  | existing, fields => .obj ((existing.getD .empty).setAll fields).fields

/-- The code of a request at a stage; a request that is refused has not read for good. -/
def Editor.At (ed : Editor) : Stage Json → Prop
  | .idle => ed.prog = updateTenantSettings ed.principal ed.tenantID ed.req ∨
      ∃ r, ed.prog = .ret r ∧ r.status ≠ 200
  | .holding copy => ∃ settings : GoMap, settings.toJson = ed.req.merge copy ∧
      ed.prog = saveSettings ed.principal ed.tenantID settings
  | .done => (∃ event, ed.prog = audit event >>= fun _ => .ret (.message "settings updated")) ∨
      ed.prog = .ret (.message "settings updated")

private theorem existingSettings_eq (row : Except Err (List Value)) :
    ∃ copy, existingSettings row = settingsOf copy ∧ ∀ j, row = .ok [.json j] → copy = j := by
  by_cases hrow : ∃ j, row = .ok [.json j]
  · obtain ⟨j, rfl⟩ := hrow
    refine ⟨j, rfl, fun j' hj' => ?_⟩
    simpa using hj'
  · refine ⟨.obj [], ?_, fun j hj => absurd ⟨j, hj⟩ hrow⟩
    have hempty : settingsOf (.obj []) = some .empty := rfl
    rw [hempty]
    unfold existingSettings
    split
    · next fields => exact absurd ⟨_, rfl⟩ hrow
    · exact absurd ⟨_, rfl⟩ hrow
    · rfl

private theorem updateTenantSettings_cases (p : Principal) (tenantID : String)
    (req : TenantSettings) :
    (∃ r, updateTenantSettings p tenantID req = .ret r ∧ r.status ≠ 200) ∨
    ∃ f, updateTenantSettings p tenantID req =
        .call (configRead tenantID) f ∧
      ∀ row, (∃ copy settings, f row = saveSettings p tenantID settings ∧
          settings.toJson = req.merge copy ∧ ∀ j, row = .ok [.json j] → copy = j) ∨
        ∃ r, f row = .ret r ∧ r.status ≠ 200 := by
  unfold updateTenantSettings
  split
  · exact .inl ⟨_, rfl, by simp [JsonResponse.error]⟩
  · split
    · exact .inl ⟨_, rfl, by simp [JsonResponse.error]⟩
    · refine .inr ⟨_, rfl, fun row => ?_⟩
      obtain ⟨copy, hexisting, hcopy⟩ := existingSettings_eq row
      cases hsettings : settingsOf copy with
      | none =>
          cases hfields : req.fields with
          | nil =>
              refine .inl ⟨copy, none, ?_, ?_, hcopy⟩
              · dsimp only [Prog.bind]
                rw [hexisting, hsettings]
              · simp [TenantSettings.merge, hsettings, hfields, GoMap.toJson]
          | cons field rest =>
              refine .inr ⟨.error 500 "internal server error", ?_, by simp [JsonResponse.error]⟩
              dsimp only [Prog.bind]
              rw [hexisting, hsettings]
              rfl
      | some existing =>
          refine .inl ⟨copy, some (existing.setAll req.fields), ?_, ?_, hcopy⟩
          · dsimp only [Prog.bind]
            rw [hexisting, hsettings]
          · simp [TenantSettings.merge, hsettings, GoMap.toJson]

private theorem saveSettings_eq (p : Principal) (tenantID : String) (settings : GoMap) :
    ∃ f, saveSettings p tenantID settings =
        .call (configWrite settings.toJson tenantID) f ∧
      ∀ n, ∃ event, f (.ok n) =
        audit event >>= fun _ => .ret (.message "settings updated") :=
  ⟨_, rfl, fun _ => ⟨_, rfl⟩⟩

def editOf (editors : List Editor) (i : Nat) (config : Json) : Json :=
  match editors[i]? with
  | some ed => ed.req.merge config
  | none => config

def Editor.identity (ed : Editor) : Principal × String × TenantSettings :=
  (ed.principal, ed.tenantID, ed.req)

structure EditWorld.Simulates (k : String) (editors : List Editor) (w : EditWorld)
    (s : State Json Nat) : Prop where
  config : w.db.configOf k = some (.json s.value)
  same : ∀ i : Nat, w.editors[i]?.map Editor.identity = editors[i]?.map Editor.identity
  stage : ∀ (i : Nat) (ed : Editor), w.editors[i]? = some ed →
    ∃ stage, ed.At stage ∧ (ed.edits k = true → s.stage i = stage)
  others : ∀ i, s.stage i ≠ .idle → ∃ ed, w.editors[i]? = some ed ∧ ed.edits k = true

section

variable {k : String} {editors : List Editor} {w w' : EditWorld} {s : State Json Nat}

theorem EditWorld.Simulates.editor (h : w.Simulates k editors s) {i : Nat} {ed : Editor}
    (hed : w.editors[i]? = some ed) :
    ∃ ed₀, editors[i]? = some ed₀ ∧ ed₀.tenantID = ed.tenantID ∧ ed₀.req = ed.req := by
  have hmap := h.same i
  rw [hed, Option.map_some, eq_comm] at hmap
  obtain ⟨ed₀, hed₀, heq⟩ := Option.map_eq_some_iff.mp hmap
  simp only [Editor.identity, Prod.mk.injEq] at heq
  exact ⟨ed₀, hed₀, heq.2.1, heq.2.2⟩

private theorem simulates_set {i : Nat} {ed : Editor} {db : AdminDb}
    {prog : AdminCode JsonResponse} {s' : State Json Nat} {stage : Stage Json}
    (h : w.Simulates k editors s) (hed : w.editors[i]? = some ed)
    (hconfig : db.configOf k = some (.json s'.value))
    (hat : (ed.resume prog).At stage)
    (hself : ed.edits k = true → s'.stage i = stage)
    (hother : ∀ j, j ≠ i → s'.stage j = s.stage j)
    (hidle : ed.edits k = false → s'.stage i = s.stage i) :
    EditWorld.Simulates k editors ⟨db, w.editors.set i (ed.resume prog)⟩ s' := by
  obtain ⟨hi, -⟩ := List.getElem?_eq_some_iff.mp hed
  have hset : (w.editors.set i (ed.resume prog))[i]? = some (ed.resume prog) :=
    List.getElem?_set_self hi
  constructor
  · exact hconfig
  · intro j
    by_cases hji : j = i
    · subst j
      rw [hset, ← h.same i, hed]
      rfl
    · rw [List.getElem?_set_ne (Ne.symm hji), h.same j]
  · intro j ed' hed'
    by_cases hji : j = i
    · subst j
      obtain rfl := Option.some.inj (hset.symm.trans hed')
      exact ⟨stage, hat, hself⟩
    · rw [List.getElem?_set_ne (Ne.symm hji)] at hed'
      obtain ⟨stage', hat', hstage'⟩ := h.stage j ed' hed'
      exact ⟨stage', hat', fun hedits => (hother j hji).trans (hstage' hedits)⟩
  · intro j hj
    by_cases hji : j = i
    · subst j
      refine ⟨_, hset, ?_⟩
      by_contra hedits
      rw [Bool.not_eq_true] at hedits
      have hnot : ed.edits k = false := hedits
      rw [hidle hnot] at hj
      obtain ⟨ed', hed', hedits'⟩ := h.others i hj
      obtain rfl := Option.some.inj (hed.symm.trans hed')
      simp [hnot] at hedits'
    · rw [hother j hji] at hj
      obtain ⟨ed', hed', hedits'⟩ := h.others j hj
      exact ⟨ed', by rw [List.getElem?_set_ne (Ne.symm hji)]; exact hed', hedits'⟩

private theorem simulates_stutter {i : Nat} {ed : Editor} {db : AdminDb}
    {prog : AdminCode JsonResponse} {stage : Stage Json}
    (h : w.Simulates k editors s) (hed : w.editors[i]? = some ed)
    (hconfig : db.configOf k = some (.json s.value))
    (hat : (ed.resume prog).At stage)
    (hself : ed.edits k = true → s.stage i = stage) :
    EditWorld.Simulates k editors ⟨db, w.editors.set i (ed.resume prog)⟩ s :=
  simulates_set h hed hconfig hat hself (fun _ _ => rfl) fun _ => rfl

private theorem simulates_read {i : Nat} {o : AdminOutcome} {ed : Editor}
    {f : AdminReply (configRead ed.tenantID) → AdminCode JsonResponse}
    (h : w.Simulates k editors s) (hed : w.editors[i]? = some ed)
    (halone : ∀ ed', w.editors[i]? = some ed' → ed'.edits k = true → ed'.reads = true →
      ∀ other ∈ w.editors, other.edits k = true → other.writes = false)
    (hprog : ed.prog = .call (configRead ed.tenantID) f)
    (hreply : ∀ row, (∃ copy settings, f row = saveSettings ed.principal ed.tenantID settings ∧
        settings.toJson = ed.req.merge copy ∧ ∀ j, row = .ok [.json j] → copy = j) ∨
      ∃ r, f row = .ret r ∧ r.status ≠ 200)
    (hanswer : (w.db.answer o (configRead ed.tenantID)).1 ≠ .error .driver)
    (hidle : ed.edits k = true → s.stage i = .idle) :
    ∃ s', EditWorld.Simulates k editors ⟨(w.db.answer o (configRead ed.tenantID)).2,
        w.editors.set i (ed.resume (f (w.db.answer o (configRead ed.tenantID)).1))⟩ s' ∧
      (s' = s ∨ ∃ event, Exclusive s event ∧
        SharedEdits.step (editOf editors) s event = some s') := by
  rw [answer_selectRow_db]
  rcases hreply (w.db.answer o (configRead ed.tenantID)).1 with
    ⟨copy, settings, hsave, hmerge, hcopy⟩ | ⟨r, hret, hr⟩
  · have hat : (ed.resume (f (w.db.answer o (configRead ed.tenantID)).1)).At (.holding copy) :=
      ⟨settings, hmerge, hsave⟩
    by_cases hedits : ed.edits k = true
    · -- the copy is what is stored, and nobody else holds one
      have ht : Uuid.read ed.tenantID = some k := beq_iff_eq.mp hedits
      obtain rfl := hcopy s.value (answer_selectRow ht h.config hanswer)
      refine ⟨{ s with stage := Function.update s.stage i (.holding s.value) },
        simulates_set h hed h.config hat (fun _ => by simp)
          (fun j hj => by simp [hj]) (fun hnot => by simp [hedits] at hnot), .inr ⟨.read i, ?_, ?_⟩⟩
      · intro j copy hj
        obtain ⟨other, hother, hothers⟩ := h.others j (by simp [hj])
        obtain ⟨stage, hat, hstage⟩ := h.stage j other hother
        obtain rfl := hj.symm.trans (hstage hothers)
        obtain ⟨settings', -, hsave'⟩ := hat
        have hwrites := halone ed hed hedits (by simp [Editor.reads, hprog, Prog.next?]) other
          (List.mem_of_getElem? hother) hothers
        obtain ⟨g, hwrite, -⟩ := saveSettings_eq other.principal other.tenantID settings'
        simp [Editor.writes, hsave', hwrite, Prog.next?] at hwrites
      · simp only [SharedEdits.step, hidle hedits]
    · refine ⟨s, simulates_stutter h hed h.config hat fun h' => absurd h' hedits, .inl rfl⟩
  · have hat : (ed.resume (f (w.db.answer o (configRead ed.tenantID)).1)).At .idle :=
      .inr ⟨r, hret, hr⟩
    exact ⟨s, simulates_stutter h hed h.config hat hidle, .inl rfl⟩

private theorem simulates_write {i : Nat} {o : AdminOutcome} {ed : Editor} {copy : Json}
    {settings : GoMap}
    {f : AdminReply (configWrite settings.toJson ed.tenantID) → AdminCode JsonResponse}
    (h : w.Simulates k editors s) (hed : w.editors[i]? = some ed)
    (hmerge : settings.toJson = ed.req.merge copy)
    (hreply : ∀ n, ∃ event, f (.ok n) =
      audit event >>= fun _ => .ret (.message "settings updated"))
    (hanswer : (w.db.answer o (configWrite settings.toJson ed.tenantID)).1 ≠ .error .driver)
    (hholding : ed.edits k = true → s.stage i = .holding copy) :
    ∃ s', EditWorld.Simulates k editors
        ⟨(w.db.answer o (configWrite settings.toJson ed.tenantID)).2, w.editors.set i
          (ed.resume (f (w.db.answer o (configWrite settings.toJson ed.tenantID)).1))⟩ s' ∧
      (s' = s ∨ ∃ event, Exclusive s event ∧
        SharedEdits.step (editOf editors) s event = some s') := by
  obtain ⟨⟨n, hn⟩, hconfig⟩ := answer_configUpdate h.config hanswer
  obtain ⟨event, hevent⟩ := hreply n
  have hat : (ed.resume (f (w.db.answer o (configWrite settings.toJson ed.tenantID)).1)).At
      .done :=
    .inl ⟨event, by rw [hn]; exact hevent⟩
  by_cases hedits : ed.edits k = true
  · have ht : Uuid.read ed.tenantID = some k := beq_iff_eq.mp hedits
    rw [if_pos ht] at hconfig
    obtain ⟨ed₀, hed₀, -, hreq⟩ := h.editor hed
    have hedit : editOf editors i copy = settings.toJson := by
      simp only [editOf, hed₀, hreq, hmerge]
    refine ⟨⟨editOf editors i copy, Function.update s.stage i .done⟩,
      simulates_set h hed (by rw [hedit]; exact hconfig) hat (fun _ => by simp)
        (fun j hj => by simp [hj]) (fun hnot => by simp [hedits] at hnot), .inr ⟨.write i,
          trivial, ?_⟩⟩
    simp only [SharedEdits.step, hholding hedits]
  · have ht : Uuid.read ed.tenantID ≠ some k := fun ht => hedits (beq_iff_eq.mpr ht)
    rw [if_neg ht] at hconfig
    exact ⟨s, simulates_stutter h hed hconfig hat (fun h' => absurd h' hedits), .inl rfl⟩

private theorem simulates_step {e : Nat × AdminOutcome} (h : w.Simulates k editors s)
    (hok : w.Succeeds e ∧ w.Undisturbed k e) (hstep : w.step e = some w') :
    ∃ s', w'.Simulates k editors s' ∧
      (s' = s ∨ ∃ event, Exclusive s event ∧
        SharedEdits.step (editOf editors) s event = some s') := by
  obtain ⟨i, o⟩ := e
  obtain ⟨hsucceeds, halone⟩ := hok
  simp only [EditWorld.step] at hstep
  split at hstep
  · next ed hed =>
      split at hstep
      · next c f hprog =>
          obtain rfl := Option.some.inj hstep
          have hanswer : (w.db.answer o c).1 ≠ .error .driver := by
            intro herror
            have hfails := hsucceeds ed hed
            simp [Editor.fails, hprog, herror, driverFailed] at hfails
          obtain ⟨stage, hat, hstage⟩ := h.stage i ed hed
          cases stage with
          | idle =>
              rcases hat with hstart | ⟨r, hret, -⟩
              · rcases updateTenantSettings_cases ed.principal ed.tenantID ed.req with
                  ⟨r, hret, -⟩ | ⟨g, hread, hreply⟩
                · simp [hprog, hret] at hstart
                · obtain ⟨rfl, hfg⟩ := Prog.call.inj (hprog.symm.trans (hstart.trans hread))
                  obtain rfl := eq_of_heq hfg
                  exact simulates_read h hed halone hprog hreply hanswer hstage
              · rw [hprog] at hret
                simp at hret
          | holding copy =>
              obtain ⟨settings, hmerge, hsave⟩ := hat
              obtain ⟨g, hwrite, hreply⟩ := saveSettings_eq ed.principal ed.tenantID settings
              obtain ⟨rfl, hfg⟩ := Prog.call.inj (hprog.symm.trans (hsave.trans hwrite))
              obtain rfl := eq_of_heq hfg
              exact simulates_write h hed hmerge hreply hanswer hstage
          | done =>
              rcases hat with ⟨event, hevent⟩ | hret
              · obtain ⟨rfl, hfg⟩ := Prog.call.inj (hprog.symm.trans hevent)
                obtain rfl := eq_of_heq hfg
                have hconfig : (w.db.answer o (.audit event)).2.configOf k =
                    some (.json s.value) := by
                  rw [configOf_answer_audit]
                  exact h.config
                have hat : (ed.resume (.ret (.message "settings updated"))).At .done := .inr rfl
                exact ⟨s, simulates_stutter h hed hconfig hat hstage, .inl rfl⟩
              · rw [hprog] at hret
                simp at hret
      · simp at hstep
  · simp at hstep

private theorem simulates_run {es : List (Nat × AdminOutcome)}
    (hrun : Run EditWorld.step (fun w e => w.Succeeds e ∧ w.Undisturbed k e) w es w')
    (h : w.Simulates k editors s) {start : Json} (hserial : Serial (editOf editors) start s) :
    ∃ s', w'.Simulates k editors s' ∧ Serial (editOf editors) start s' := by
  refine hrun.invariant (I := fun w => ∃ s', w.Simulates k editors s' ∧
    Serial (editOf editors) start s') ?_ ⟨s, h, hserial⟩
  rintro w e w' ⟨s, h, hserial⟩ hok hstep
  obtain ⟨s', h', rfl | ⟨event, hexclusive, hevent⟩⟩ := simulates_step h hok hstep
  · exact ⟨s', h', hserial⟩
  · exact ⟨s', h', hserial.step hexclusive hevent⟩

end

def getSetting (config : Json) (key : String) : Option Json :=
  (settingsOf config).bind fun settings => settings.get? key

theorem getSetting_eq {config : Json} (h : config.distinct) (key : String) :
    getSetting config key = config.field? key := by
  cases config with
  | obj fields =>
      have hsettings : settingsOf (.obj fields) = some ⟨fields, h⟩ :=
        congrArg some (JsonMap.setAll_empty ⟨fields, h⟩)
      rw [getSetting, hsettings]
      rfl
  | _ => rfl

section

variable {req : TenantSettings} {config : Json} {key : String}

private theorem keys_filterMap_sublist (l : List (String × Option String)) :
    ((l.filterMap fun f => f.2.map fun s => (f.1, Json.str s)).map Prod.fst).Sublist
      (l.map Prod.fst) := by
  induction l with
  | nil => exact .slnil
  | cons f rest ih =>
      obtain ⟨name, value⟩ := f
      cases value with
      | none => exact ih.cons name
      | some s => exact ih.cons_cons name

theorem TenantSettings.fields_nodup (req : TenantSettings) :
    (req.fields.map Prod.fst).Nodup := by
  have htexts := keys_filterMap_sublist [("timezone", req.timezone), ("country", req.country),
    ("default_sender", req.defaultFrom), ("default_sms", req.defaultSMS),
    ("branding_logo", req.brandingLogo)]
  have hnodup := htexts.nodup (by simp)
  have hmetadata : "metadata" ∉ _ := fun h => by simpa using htexts.subset h
  rw [TenantSettings.fields, List.map_append, List.nodup_append]
  refine ⟨hnodup, ?_, ?_⟩
  · split <;> simp
  · intro a ha b hb hab
    have hb' : b = "metadata" := by
      split at hb
      · simpa using hb
      · simpa using hb
      · simp at hb
    rw [hab, hb'] at ha
    exact hmetadata ha

theorem TenantSettings.storable.fields_eq (h : req.storable) : req.fields = req.requested := by
  unfold storable at h
  rw [TenantSettings.fields, TenantSettings.requested]
  split at h
  · next hnone => simp [hnone]
  · next hnull => simp [hnull]
  · next fields hobj =>
      have hmap := congrArg JsonMap.fields (JsonMap.setAll_empty ⟨fields, h⟩)
      simp [hobj, hmap]
  · exact h.elim

private theorem settingsOf_merge_of_mem {f : String × Json} (hf : f ∈ req.fields) :
    settingsOf (req.merge config) =
      some (((settingsOf config).getD .empty).setAll req.fields) := by
  unfold TenantSettings.merge
  split
  · next hfields =>
      rw [hfields] at hf
      simp at hf
  · exact congrArg some (JsonMap.setAll_empty _)

theorem getSetting_merge_of_mem {value : Json} (hmem : (key, value) ∈ req.fields) :
    getSetting (req.merge config) key = some value := by
  rw [getSetting, settingsOf_merge_of_mem hmem]
  exact JsonMap.get?_setAll_of_mem req.fields_nodup hmem

theorem getSetting_merge_of_notMem (hnot : key ∉ req.fields.map Prod.fst) :
    getSetting (req.merge config) key = getSetting config key := by
  unfold TenantSettings.merge
  split
  · next hnone _ =>
      rw [getSetting, getSetting, hnone]
      rfl
  · have hwritten : settingsOf (.obj (((settingsOf config).getD .empty).setAll
        req.fields).fields) = some (((settingsOf config).getD .empty).setAll req.fields) :=
      congrArg some (JsonMap.setAll_empty _)
    rw [getSetting, hwritten, Option.bind_some, JsonMap.get?_setAll_of_notMem hnot, getSetting]
    cases settingsOf config with
    | none => rfl
    | some settings => rfl

theorem merge_distinct : (req.merge config).distinct := by
  unfold TenantSettings.merge
  split
  · trivial
  · exact JsonMap.nodup _

end

def ownOf (editors : List Editor) (i : Nat) : List (String × Option Json) :=
  match editors[i]? with
  | some ed => ed.req.fields.map fun f => (f.1, some f.2)
  | none => []

theorem setsOwn_editOf (editors : List Editor) :
    SetsOwn getSetting (ownOf editors) (editOf editors) where
  set := by
    intro i config key value hmem
    unfold ownOf at hmem
    unfold editOf
    split at hmem
    · next ed hed =>
        obtain ⟨f, hf, heq⟩ := List.mem_map.mp hmem
        obtain ⟨rfl, rfl⟩ := Prod.mk.inj heq
        exact getSetting_merge_of_mem hf
    · simp at hmem
  keep := by
    intro i config key hnot
    unfold ownOf at hnot
    unfold editOf
    split at hnot
    · next ed hed =>
        apply getSetting_merge_of_notMem
        simpa [Function.comp_def] using hnot
    · rfl

theorem ownOf_keys {editors : List Editor} {i : Nat} {ed : Editor} (hed : editors[i]? = some ed) :
    (ownOf editors i).map Prod.fst = ed.req.fields.map Prod.fst := by
  simp only [ownOf, hed, List.map_map]
  rfl

private theorem foldl_distinct (editors : List Editor) (order : List Nat) {config : Json}
    (h : config.distinct) :
    (order.foldl (fun v i => editOf editors i v) config).distinct := by
  induction order generalizing config with
  | nil => exact h
  | cons i rest ih =>
      apply ih
      show (editOf editors i config).distinct
      unfold editOf
      split
      · exact merge_distinct
      · exact h

private theorem done_of_answered {ed : Editor} {stage : Stage Json} (hat : ed.At stage)
    (hanswered : ed.answered = true) : stage = .done := by
  obtain ⟨p, tenantID, req, prog⟩ := ed
  cases prog with
  | call c f => simp [Editor.answered] at hanswered
  | ret r =>
      have hr : r.status = 200 := by simpa [Editor.answered] using hanswered
      cases stage with
      | idle =>
          rcases hat with hstart | ⟨r', hret, hstatus⟩
          · rcases updateTenantSettings_cases p tenantID req with ⟨r', hret, hstatus⟩ |
              ⟨f, hread, -⟩
            · obtain rfl := Prog.ret.inj (hstart.trans hret)
              exact absurd hr hstatus
            · have hcall := hstart.trans hread
              simp at hcall
          · obtain rfl := Prog.ret.inj hret
            exact absurd hr hstatus
      | holding copy =>
          obtain ⟨settings, -, hsave⟩ := hat
          obtain ⟨f, hwrite, -⟩ := saveSettings_eq p tenantID settings
          have hcall := hsave.trans hwrite
          simp at hcall
      | done => rfl

/-- Any number of requests to update settings, interleaved in any way in which none reads the
configuration of tenant `k` while another one has read and is yet to write it: when they ask for
different settings of the tenant and all have been answered with success, every setting they asked
for is stored and the others are as they were. -/
theorem settings_kept {w₀ w : EditWorld} {es : List (Nat × AdminOutcome)} {k : String}
    {config : Json} (hstart : w₀.AtStart) (hconfig : w₀.db.configOf k = some (.json config))
    (hkeys : config.distinct)
    (hrun : Run EditWorld.step (fun w e => w.Succeeds e ∧ w.Undisturbed k e) w₀ es w)
    (hstorable : ∀ ed ∈ w₀.editors, ed.edits k = true → ed.req.storable)
    (hdisjoint : w₀.editors.Pairwise fun a b => a.edits k = true → b.edits k = true →
      List.Disjoint (a.req.requested.map Prod.fst) (b.req.requested.map Prod.fst))
    (hdone : ∀ ed ∈ w.editors, ed.edits k = true → ed.answered = true) :
    EditWorld.Kept k config w₀ w := by
  have hfirst : w₀.Simulates k w₀.editors ⟨config, fun _ => .idle⟩ := by
    refine ⟨hconfig, fun _ => rfl, fun i ed hed => ?_, by simp⟩
    have hat : ed.At .idle := .inl (by
      have heq := hstart ed (List.mem_of_getElem? hed)
      exact congrArg Editor.prog heq)
    exact ⟨.idle, hat, fun _ => rfl⟩
  obtain ⟨s, hs, ⟨order, hnodup, horder, hvalue⟩, -, -⟩ :=
    simulates_run hrun hfirst (serial_idle _ _)
  -- the editors of the configuration are the requests for the tenant
  have hmine : ∀ i ∈ order, ∃ ed, w₀.editors[i]? = some ed ∧ ed.edits k = true := by
    intro i hi
    obtain ⟨ed, hed, hedits⟩ := hs.others i (by rw [(horder i).mp hi]; simp)
    obtain ⟨ed₀, hed₀, htenant, -⟩ := hs.editor hed
    exact ⟨ed₀, hed₀, by rw [Editor.edits, htenant]; exact hedits⟩
  have hkeysOf : ∀ (i : Nat) (ed : Editor), w₀.editors[i]? = some ed → ed.edits k = true →
      (ownOf w₀.editors i).map Prod.fst = ed.req.requested.map Prod.fst := by
    intro i ed hed hedits
    rw [ownOf_keys hed, (hstorable ed (List.mem_of_getElem? hed) hedits).fields_eq]
  have hpairwise : order.Pairwise fun i j => List.Disjoint ((ownOf w₀.editors i).map Prod.fst)
      ((ownOf w₀.editors j).map Prod.fst) := by
    apply hnodup.pairwise_of_forall_ne
    intro i hi j hj hij
    obtain ⟨a, ha, hak⟩ := hmine i hi
    obtain ⟨b, hb, hbk⟩ := hmine j hj
    rw [hkeysOf i a ha hak, hkeysOf j b hb hbk]
    obtain ⟨hilt, rfl⟩ := List.getElem?_eq_some_iff.mp ha
    obtain ⟨hjlt, rfl⟩ := List.getElem?_eq_some_iff.mp hb
    rcases Nat.lt_or_gt_of_ne hij with hlt | hlt
    · exact List.pairwise_iff_getElem.mp hdisjoint i j hilt hjlt hlt hak hbk
    · exact (List.pairwise_iff_getElem.mp hdisjoint j i hjlt hilt hlt hbk hak).symm
  have hdistinct : s.value.distinct := by
    rw [hvalue]
    exact foldl_distinct w₀.editors order hkeys
  refine ⟨s.value, hs.config, fun ed hed hedits f hf => ?_, fun key hkey => ?_⟩
  · obtain ⟨i, hi⟩ := List.getElem?_of_mem hed
    obtain ⟨ed', hed', hsame⟩ : ∃ ed', w.editors[i]? = some ed' ∧
        ed'.identity = ed.identity := by
      have hmap := hs.same i
      rw [hi, Option.map_some] at hmap
      exact Option.map_eq_some_iff.mp hmap
    have hedits' : ed'.edits k = true := by
      have htenant : ed'.tenantID = ed.tenantID := congrArg (fun x => x.2.1) hsame
      rw [Editor.edits, htenant]
      exact hedits
    obtain ⟨stage, hat, hstage⟩ := hs.stage i ed' hed'
    have hwritten : i ∈ order := by
      rw [horder, hstage hedits',
        done_of_answered hat (hdone ed' (List.mem_of_getElem? hed') hedits')]
    have hmem : (f.1, some f.2) ∈ ownOf w₀.editors i := by
      simp only [ownOf, hi, (hstorable ed hed hedits).fields_eq]
      exact List.mem_map_of_mem hf
    rw [← getSetting_eq hdistinct, hvalue]
    exact (setsOwn_editOf w₀.editors).foldl_of_mem hpairwise hwritten hmem config
  · have hnot : ∀ i ∈ order, key ∉ (ownOf w₀.editors i).map Prod.fst := by
      intro i hi
      obtain ⟨ed, hed, hedits⟩ := hmine i hi
      rw [hkeysOf i ed hed hedits]
      exact hkey ed (List.mem_of_getElem? hed) hedits
    rw [← getSetting_eq hdistinct, ← getSetting_eq hkeys, hvalue]
    exact (setsOwn_editOf w₀.editors).foldl_of_notMem hnot config

def sampleSettings : EditWorld where
  db
    | .tenants => [AdminTable.tenants.newRow "00000000-0000-0000-0000-000000000001" 0
        [("name", .text "Acme"), ("slug", .text "acme"),
          ("config_json", .json (.obj [("plan", .str "pro")]))]]
    | _ => []
  editors :=
    [.start ⟨7, "", true, []⟩ "00000000-0000-0000-0000-000000000001"
        ⟨some "Asia/Kathmandu", none, none, none, none, none⟩,
      .start ⟨7, "", true, []⟩ "00000000-0000-0000-0000-000000000001"
        ⟨none, some "NP", none, none, none, none⟩]

theorem sampleSettings_atStart : sampleSettings.AtStart := by
  intro ed hed
  simp only [sampleSettings, List.mem_cons, List.not_mem_nil, or_false] at hed
  rcases hed with rfl | rfl <;> rfl

theorem sampleSettings_disjoint (k : String) : sampleSettings.editors.Pairwise fun a b =>
    a.edits k = true → b.edits k = true →
      List.Disjoint (a.req.requested.map Prod.fst) (b.req.requested.map Prod.fst) := by
  simp [sampleSettings, Editor.start, TenantSettings.requested]

theorem sampleSettings_storable (k : String) :
    ∀ ed ∈ sampleSettings.editors, ed.edits k = true → ed.req.storable := by
  intro ed hed _
  simp only [sampleSettings, List.mem_cons, List.not_mem_nil, or_false] at hed
  rcases hed with rfl | rfl <;> trivial

def Value.lacks (key : String) : Value → Bool
  | .json j => (j.field? key).isNone
  | _ => false

/-- The two requests are served one after the other. -/
theorem settings_kept_serially : ∃ es w,
    Run EditWorld.step (fun w e => w.Succeeds e ∧
      w.Undisturbed "00000000-0000-0000-0000-000000000001" e) sampleSettings es w ∧
    EditWorld.Kept "00000000-0000-0000-0000-000000000001" (.obj [("plan", .str "pro")])
      sampleSettings w := by
  obtain ⟨w, hrun, hw⟩ := EditWorld.exists_run (fun w e => w.Succeeds e ∧
      w.Undisturbed "00000000-0000-0000-0000-000000000001" e) sampleSettings
    [(0, {}), (0, {}), (0, { id := "a" }), (1, {}), (1, {}), (1, { id := "b" })]
    (fun w => w.editors.all Editor.answered) (by decide +kernel)
  have hdone : ∀ ed ∈ w.editors, ed.answered = true := List.all_eq_true.mp hw
  exact ⟨_, w, hrun, settings_kept sampleSettings_atStart rfl (by simp [Json.distinct]) hrun
    (sampleSettings_storable _) (sampleSettings_disjoint _) fun ed hed _ => hdone ed hed⟩

/-- Both requests read before one of them writes: both are answered with success, and the second
write has taken back the setting of the first. -/
theorem settings_lost : ¬∀ (w₀ w : EditWorld) (es : List (Nat × AdminOutcome)) (k : String)
    (config : Json), w₀.AtStart → w₀.db.configOf k = some (.json config) → config.distinct →
    Run EditWorld.step EditWorld.Succeeds w₀ es w →
    (∀ ed ∈ w₀.editors, ed.edits k = true → ed.req.storable) →
    (w₀.editors.Pairwise fun a b => a.edits k = true → b.edits k = true →
      List.Disjoint (a.req.requested.map Prod.fst) (b.req.requested.map Prod.fst)) →
    (∀ ed ∈ w.editors, ed.edits k = true → ed.answered = true) →
    EditWorld.Kept k config w₀ w := by
  intro hclaim
  obtain ⟨w, hrun, hw⟩ := EditWorld.exists_run EditWorld.Succeeds sampleSettings
    [(0, {}), (1, {}), (0, {}), (0, { id := "a" }), (1, {}), (1, { id := "b" })]
    (fun w => w.editors.all Editor.answered &&
      (w.db.configOf "00000000-0000-0000-0000-000000000001").any (Value.lacks "timezone"))
    (by decide +kernel)
  rw [Bool.and_eq_true] at hw
  have hdone : ∀ ed ∈ w.editors, ed.answered = true := List.all_eq_true.mp hw.1
  obtain ⟨final, hfinal, hrequested, -⟩ := hclaim sampleSettings w _
    "00000000-0000-0000-0000-000000000001" (.obj [("plan", .str "pro")]) sampleSettings_atStart
    rfl (by simp [Json.distinct]) hrun (sampleSettings_storable _) (sampleSettings_disjoint _)
    fun ed hed _ => hdone ed hed
  have htimezone := hrequested (.start ⟨7, "", true, []⟩ "00000000-0000-0000-0000-000000000001"
    ⟨some "Asia/Kathmandu", none, none, none, none, none⟩) (by simp [sampleSettings])
    (by decide +kernel) ("timezone", .str "Asia/Kathmandu")
    (by simp [Editor.start, TenantSettings.requested])
  rw [hfinal] at hw
  simp [Value.lacks, htimezone] at hw

end NotificationPlatform
