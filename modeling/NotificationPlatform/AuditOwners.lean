import NotificationPlatform.AuditTrail

/-!
# Whose rows an audited request writes

An event that names the owner of the written row is right when the request writes no other rows.
Where the request itself names the tenant, its statements are limited to that tenant; the handler of
a queue control reads the tenant from the row that it then changes.
-/

namespace NotificationPlatform

open Lib Lib.Sql

/-- The rows that belong to a tenant; those of the audit log are not among them. -/
def AdminDb.ownedBy (db : AdminDb) (t : String) : AdminTable → List (Row Value) :=
  fun table => if table = .auditLogs then [] else (db table).filter (belongsTo t table)

def elsewhere (t : String) (table : AdminTable) (row : Row Value) : Bool :=
  decide (table = .auditLogs) || !belongsTo t table row

theorem ownedBy_of_kept {t : String} {db db' : AdminDb} (h : Kept (elsewhere t) db db') :
    db'.ownedBy t = db.ownedBy t := by
  funext table
  unfold AdminDb.ownedBy
  split
  · rfl
  · next htable =>
      have hkept := h table
      simpa [elsewhere, htable] using hkept

theorem belongsTo_iff {t : String} {table : AdminTable} {row : Row Value} :
    belongsTo t table row = true ↔ row table.ownerColumn = .text t := by
  constructor
  · exact Value.eq_of_same
  · intro h
    simp [belongsTo, h, Value.same]

theorem elsewhere_of_ne {t : String} {table : AdminTable} {row : Row Value}
    (h : row table.ownerColumn ≠ .text t) : elsewhere t table row = true := by
  have hother : belongsTo t table row = false := by
    rw [← Bool.not_eq_true, belongsTo_iff]
    exact h
  simp [elsewhere, hother]

theorem elsewhere_assign {t : String} {table : AdminTable} {row : Row Value} {clock : Value}
    {args : List Value} {sets : Terms Value} {bound : List (String × Value)}
    (hbound : adminEngine.bind clock args sets = some bound) (hplain : Plain sets)
    (h : elsewhere t table row = true) : elsewhere t table (assign bound row) = true := by
  have hcolumn : table.ownerColumn ∈ uuidColumns := by cases table <;> decide
  have howner := AdminDb.assign_plain hbound hplain row hcolumn
  simpa [elsewhere, belongsTo, howner] using h

/-- What a handler that writes rows of the tenant `tenantID` calls: it inserts rows for the tenant,
or changes the row of the tenant itself. -/
inductive Touches (tenantID : String) : Unit → (c : AdminCall) → (AdminReply c → Unit) → Prop
  | insert {table : AdminTable} {values : Terms Value} {v : Value} {args : List Value}
      (htable : table ∈ insertedTables) (hv : v = .text tenantID ∨ v = .ofText tenantID) :
      Touches tenantID () (.insert table (("tenant_id", .param 1) :: values) (v :: args))
        (fun _ => ())
  | tenant {sets conds : Terms Value} {args : List Value} {n : Nat} (hplain : Plain sets)
      (hcond : ("id", .param (n + 1)) ∈ conds) (harg : args[n]? = some (.text tenantID)) :
      Touches tenantID () (.exec (.update .tenants sets conds) args) (fun _ => ())
  | selectRow (table : AdminTable) (columns : List String) (conds : Terms Value)
      (args : List Value) : Touches tenantID () (.selectRow table columns conds args) (fun _ => ())
  | encrypt (plain : String) : Touches tenantID () (.encrypt plain) (fun _ => ())
  | randomToken (kind : String) : Touches tenantID () (.randomToken kind) (fun _ => ())
  | audit (event : AuditEvent) : Touches tenantID () (.audit event) (fun _ => ())

section

variable {tenantID t : String} {env : Nat → AdminOutcome} {s : AdminState}

private theorem elsewhere_newRow {table : AdminTable} (htable : table ∈ insertedTables)
    {values : Terms Value} {v clock : Value} {args : List Value} {bound : List (String × Value)}
    (hv : v = .text tenantID ∨ v = .ofText tenantID) (hne : Uuid.read tenantID ≠ some t)
    (hbound : adminEngine.bind clock (v :: args) (("tenant_id", .param 1) :: values) = some bound)
    (id : String) (now : Int) : elsewhere t table (table.newRow id now bound) = true := by
  have howner : ∀ table ∈ insertedTables, table.ownerColumn = "tenant_id" := by decide
  apply elsewhere_of_ne
  rw [howner table htable]
  cases Engine.bind_eq_some hbound with
  | @cons _ b _ rest hfirst _ =>
      obtain ⟨column, w⟩ := b
      obtain ⟨hcolumn, hread⟩ := hfirst
      obtain rfl : "tenant_id" = column := hcolumn
      have hw : readColumn "tenant_id" v = some w := by
        simpa [Term.eval, adminEngine] using hread
      have hrow : table.newRow id now (("tenant_id", w) :: rest) "tenant_id" = w := by
        simp [AdminTable.newRow]
      rw [hrow]
      intro hwt
      subst hwt
      rcases hv with rfl | rfl
      · apply hne
        simpa [readColumn, uuidColumns] using hw
      · exact hne (readColumn_ofText_iff.mp hw)

private theorem Touches.kept {c : AdminCall} {f : AdminReply c → Unit}
    (h : Touches tenantID () c f) (hne : Uuid.read tenantID ≠ some t) :
    Kept (elsewhere t) s.db (s.call env c).2.db := by
  rcases call_cases env c s with ⟨e, heq⟩ | ⟨r, db', -, hperform, heq⟩
  · rw [heq]
    exact Kept.refl _ _
  · rw [heq]
    dsimp only
    cases h with
    | insert htable hv =>
        obtain ⟨bound, hbound, -, hinsert⟩ := perform_insert hperform
        exact kept_insert hinsert (elsewhere_newRow htable hv hne hbound _ _)
    | tenant hplain hcond harg =>
        obtain ⟨bsets, bconds, hsets, hconds, rfl⟩ := perform_update hperform
        apply kept_update
        · intro row _ hselects
          obtain ⟨u, hu, hid⟩ := AdminDb.selected_text hconds hselects (by decide) hcond harg
          apply elsewhere_of_ne
          intro hrow
          have hidt : row "id" = .text t := hrow
          rw [hid] at hidt
          apply hne
          rw [hu, Value.text.inj hidt]
        · intro row hrow
          exact elsewhere_assign hsets hplain hrow
    | selectRow table columns conds args =>
        simp only [AdminDb.perform] at hperform
        split at hperform
        · simp at hperform
        · split at hperform
          · obtain ⟨-, rfl⟩ := Prod.mk.inj (Except.ok.inj hperform)
            exact Kept.refl _ _
          · simp at hperform
    | encrypt plain =>
        obtain ⟨-, rfl⟩ := Prod.mk.inj (Except.ok.inj hperform)
        exact Kept.refl _ _
    | randomToken kind =>
        obtain ⟨-, rfl⟩ := Prod.mk.inj (Except.ok.inj hperform)
        exact Kept.refl _ _
    | audit event =>
        simp only [AdminDb.perform] at hperform
        split at hperform
        · next hinsert =>
            obtain ⟨-, rfl⟩ := Prod.mk.inj (Except.ok.inj hperform)
            obtain ⟨_, -, hrow⟩ := AdminDb.insertAudit_eq_some hinsert
            exact kept_insert hrow (by simp [elsewhere])
        · simp at hperform

/-- The code writes only rows of the tenant `tenantID`. -/
abbrev WritesFor {α : Type} (tenantID : String) (code : AdminCode α) : Prop :=
  Prog.Follows (Touches tenantID) (fun _ _ => True) () code

private theorem writesFor_audit (event : AuditEvent) (r : JsonResponse) :
    WritesFor tenantID (audit event >>= fun _ => .ret r) :=
  Prog.follows_call _ (.audit event) fun _ => trivial

private theorem writesFor_creating {table : AdminTable} (htable : table ∈ insertedTables)
    {values : Terms Value} {v : Value} {args : List Value}
    (hv : v = .text tenantID ∨ v = .ofText tenantID) (failed : Err → JsonResponse)
    (event : String → AuditEvent) (done : String) :
    WritesFor tenantID (insertRow table (("tenant_id", .param 1) :: values) (v :: args) >>= fun r =>
      answerCreated r failed event done) := by
  apply Prog.follows_call _ (.insert htable hv)
  intro r
  unfold answerCreated
  cases r with
  | error e => exact trivial
  | ok id => exact writesFor_audit _ _

private theorem saveSettings_writesFor (p : Principal) (settings : GoMap) :
    WritesFor tenantID (saveSettings p tenantID settings) := by
  have hplain : Plain [("config_json", .param 1), ("updated_at", .now)] := by
    simp [Plain, uuidColumns]
  have hcall : Touches tenantID () (.exec (.update .tenants
      [("config_json", .param 1), ("updated_at", .now)] [("id", .param 2)])
      [.json settings.toJson, .text tenantID]) (fun _ => ()) :=
    .tenant hplain (by simp) (n := 1) rfl
  apply Prog.follows_call _ hcall
  intro r
  cases r with
  | error e => exact trivial
  | ok _ => exact writesFor_audit _ _

theorem serve_writesFor (cfg : AdminConfig) (p : Principal) {r : AdminRequest}
    (howner : r.owner p = some tenantID) : WritesFor tenantID (serve cfg p r) := by
  cases r with
  | createContact req =>
      obtain rfl := Option.some.inj howner
      exact writesFor_creating (by decide) (.inr rfl) _ _ _
  | createGroup req =>
      obtain rfl := Option.some.inj howner
      dsimp only [serve]
      unfold createGroup
      dsimp only
      split
      · exact trivial
      · exact writesFor_creating (by decide) (.inr rfl) _ _ _
  | createTemplate tenantID req =>
      obtain rfl := Option.some.inj howner
      dsimp only [serve]
      unfold createTemplate
      dsimp only
      split
      · exact trivial
      · exact writesFor_creating (by decide) (.inr rfl) _ _ _
  | createCampaign req =>
      obtain rfl := Option.some.inj howner
      dsimp only [serve]
      unfold createCampaign
      dsimp only
      split
      · exact trivial
      · exact writesFor_creating (by decide) (.inr rfl) _ _ _
  | createProviderConfig req =>
      obtain rfl := Option.some.inj howner
      dsimp only [serve]
      unfold createProviderConfig
      dsimp only
      split
      · exact trivial
      · apply Prog.follows_call _ (.encrypt _)
        intro r
        cases r with
        | error e => exact trivial
        | ok encrypted => exact writesFor_creating (by decide) (.inr rfl) _ _ _
  | createAPIKey now req =>
      obtain rfl := Option.some.inj howner
      dsimp only [serve]
      unfold createAPIKey
      dsimp only
      split
      · exact trivial
      split
      · exact trivial
      · apply Prog.follows_call _ (.randomToken _)
        intro r
        cases r with
        | error e => exact trivial
        | ok raw =>
            apply Prog.follows_call _ (.insert (by decide) (.inl rfl))
            intro r
            cases r with
            | error e => exact trivial
            | ok id => exact writesFor_audit _ _
  | updateTenantSettings id req =>
      obtain rfl := Option.some.inj howner
      dsimp only [serve]
      unfold updateTenantSettings
      split
      · exact trivial
      split
      · exact trivial
      · apply Prog.follows_call _ (.selectRow _ _ _ _)
        intro r
        dsimp only [Prog.bind]
        split
        · exact saveSettings_writesFor p none
        · exact trivial
        · exact saveSettings_writesFor p _
  | _ => simp [AdminRequest.owner] at howner

theorem serve_ownedBy {cfg : AdminConfig} {p : Principal} {r : AdminRequest}
    (howner : r.owner p = some tenantID) (hne : Uuid.read tenantID ≠ some t) :
    ((serve cfg p r).eval (AdminState.call env) s).2.db.ownedBy t = s.db.ownedBy t := by
  apply ownedBy_of_kept
  obtain ⟨_, -, hkept⟩ := (serve_writesFor cfg p howner).eval
    (I := fun _ (s' : AdminState) => Kept (elsewhere t) s.db s'.db)
    (fun _ _ _ _ htouches hkept => hkept.trans (htouches.kept hne)) (Kept.refl _ s.db)
  exact hkept

private theorem selectControl_ok {o : AdminOutcome} {db db' : AdminDb} {id : String}
    {r : List Value} (h : db.perform o (.selectRow .tenantQueueControls ["tenant_id"]
      [("id", .param 1)] [.text id]) = .ok (r, db')) :
    db' = db ∧ ∃ u, Uuid.read id = some u ∧ ∃ row ∈ db .tenantQueueControls,
      row "id" = .text u ∧ r = [row "tenant_id"] := by
  simp only [AdminDb.perform] at h
  split at h
  · simp at h
  · next bconds hbound =>
      split at h
      · next found hfind =>
          obtain ⟨hcolumns, rfl⟩ := Prod.mk.inj (Except.ok.inj h)
          have hselects := List.find?_some hfind
          have hcond : ("id", Term.param 1) ∈ [("id", (Term.param 1 : Term Value))] := by simp
          obtain ⟨u, hu, hid⟩ := AdminDb.selected_text hbound hselects (by decide) hcond rfl
          exact ⟨rfl, u, hu, found, List.mem_of_find?_eq_some hfind, hid, hcolumns.symm⟩
      · simp at h

private theorem kept_of_control {db db' : AdminDb} (hsound : db.Sound) {o : AdminOutcome}
    {sets conds : Terms Value} {args : List Value} {k n : Nat} (hplain : Plain sets)
    {id u : String} (hu : Uuid.read id = some u) (hcond : ("id", .param (k + 1)) ∈ conds)
    (harg : args[k]? = some (.text id)) {row : Row Value} (hrow : row ∈ db .tenantQueueControls)
    (hid : row "id" = .text u) (hne : row "tenant_id" ≠ .text t)
    (h : db.perform o (.exec (.update .tenantQueueControls sets conds) args) = .ok (n, db')) :
    Kept (elsewhere t) db db' := by
  obtain ⟨bsets, bconds, hsets, hconds, rfl⟩ := perform_update h
  apply kept_update
  · intro selected hmem hselects
    obtain ⟨v, hv, hkey⟩ := AdminDb.selected_text hconds hselects (by decide) hcond harg
    obtain rfl := Option.some.inj (hu.symm.trans hv)
    -- the key is that of the row the query has found
    obtain rfl := hsound.row_unique hmem hrow hkey hid
    exact elsewhere_of_ne hne
  · intro selected helse
    exact elsewhere_assign hsets hplain helse

private theorem ownedBy_audit (event : AuditEvent) :
    (s.call env (.audit event)).2.db.ownedBy t = s.db.ownedBy t := by
  funext table
  unfold AdminDb.ownedBy
  split
  · rfl
  · next htable => rw [audit_frame event htable]

private theorem queueControlSets_numbered {p : Principal} {req : QueueControlUpdate} {b : Builder}
    (h : queueControlSets req
      ⟨[("updated_at", .now), ("updated_by", .param 1)], [], [.ofText p.userText], 2⟩ = .ok b) :
    b.Numbered := by
  have hstart : Builder.Numbered
      ⟨[("updated_at", .now), ("updated_by", .param 1)], [], [.ofText p.userText], 2⟩ :=
    ⟨rfl, by simp [Plain, uuidColumns]⟩
  exact numbered_queueControlSets hstart h

private theorem control_audited {db : AdminDb} (hsound : db.Sound) {o : AdminOutcome}
    {b : Builder} (hb : b.Numbered) {n : Nat} {id u : String} (hu : Uuid.read id = some u)
    {row : Row Value} (hrow : row ∈ db .tenantQueueControls) (hid : row "id" = .text u)
    {event : AuditEvent} (howner : row "tenant_id" = .text event.tenantID)
    (hupdate : db.perform o (.exec (.update .tenantQueueControls (b.cond "id" (.text id)).sets
      (b.cond "id" (.text id)).conds) (b.cond "id" (.text id)).args) = .ok (n, s.db))
    (hreply : AuditReply (.audit event) (s.call env (.audit event)).1) :
    (s.call env (.audit event)).2.db.ownedBy t = db.ownedBy t ∨
      event.tenantID = t ∧ db.Trail [event] (s.call env (.audit event)).2.db := by
  by_cases hsame : event.tenantID = t
  · right
    have hquiet : (AdminCall.exec (.update .tenantQueueControls (b.cond "id" (.text id)).sets
        (b.cond "id" (.text id)).conds) (b.cond "id" (.text id)).args).quiet := by
      simp [AdminCall.quiet]
    have htrail := (AdminDb.Trail.refl db).of_eq (exec_log hquiet hupdate)
    exact ⟨hsame, trail_call htrail hreply⟩
  · left
    have hne : row "tenant_id" ≠ .text t := by
      rw [howner]
      intro h
      exact hsame (Value.text.inj h)
    obtain ⟨k, hcond, harg⟩ := hb.cond_mem "id" (.text id)
    have hkept := kept_of_control hsound (hb.cond "id" (.text id)).plain hu hcond harg
      hrow hid hne hupdate
    calc (s.call env (.audit event)).2.db.ownedBy t = s.db.ownedBy t := ownedBy_audit event
      _ = db.ownedBy t := ownedBy_of_kept hkept

theorem updateQueueControl_ownedBy {p : Principal} {id : String} {req : QueueControlUpdate}
    (hsound : s.db.Sound)
    (haudits : (updateQueueControl p id req).Ends (AdminState.call env) AuditReply
      (fun _ _ => True) s) :
    ((updateQueueControl p id req).eval (AdminState.call env) s).2.db.ownedBy t = s.db.ownedBy t ∨
      ∃ event, event.tenantID = t ∧ s.db.Trail [event]
        ((updateQueueControl p id req).eval (AdminState.call env) s).2.db := by
  unfold updateQueueControl at haudits ⊢
  rw [Prog.perform_bind] at haudits ⊢
  rw [Prog.eval_call]
  obtain ⟨-, haudits⟩ := haudits
  rcases call_cases env (.selectRow .tenantQueueControls ["tenant_id"] [("id", .param 1)]
    [.text id]) s with ⟨e, heq⟩ | ⟨r, db₁, -, hperform, heq⟩
  · rw [heq]
    exact .inl rfl
  rw [heq] at haudits ⊢
  obtain ⟨rfl, u, hu, row, hrow, hid, rfl⟩ := selectControl_ok hperform
  cases howner : row "tenant_id" with
  | text tenantID =>
      rw [howner] at haudits
      dsimp only at haudits ⊢
      split
      · exact .inl rfl
      · next hown =>
          rw [if_neg hown] at haudits
          cases hsets : queueControlSets req
              ⟨[("updated_at", .now), ("updated_by", .param 1)], [], [.ofText p.userText], 2⟩ with
          | error message => exact .inl rfl
          | ok b =>
              rw [hsets] at haudits
              dsimp only at haudits ⊢
              unfold Builder.update at haudits ⊢
              rw [Prog.perform_bind] at haudits ⊢
              rw [Prog.eval_call]
              obtain ⟨-, haudits⟩ := haudits
              rcases call_cases env (.exec (.update .tenantQueueControls
                (b.cond "id" (.text id)).sets (b.cond "id" (.text id)).conds)
                (b.cond "id" (.text id)).args) ⟨s.db, s.calls + 1⟩ with
                ⟨e, heq⟩ | ⟨n, db₂, -, hupdate, heq⟩
              · rw [heq]
                exact .inl rfl
              · rw [heq] at haudits ⊢
                rcases control_audited hsound (queueControlSets_numbered hsets) hu hrow hid
                  howner hupdate haudits.1 with hsame | hlogged
                · exact .inl hsame
                · exact .inr ⟨_, hlogged⟩
  | _ => exact .inl rfl

private theorem owner_cases {p : Principal} {r : AdminRequest} {entry : AuditEntry}
    (hentry : entry ∈ r.audit) (htenant : entry.tenant = .owner) :
    (∃ tenantID, r.owner p = some tenantID) ∨ ∃ id req, r = .updateQueueControl id req := by
  cases r with
  | updateQueueControl id req => exact .inr ⟨id, req, rfl⟩
  | _ =>
      first
        | exact .inl ⟨_, rfl⟩
        | cases hentry
          cases htenant
        | cases hentry

theorem serve_owner {cfg : AdminConfig} {p : Principal} {r : AdminRequest} (hsound : s.db.Sound)
    (ht : Uuid.read t = some t) (haudits : AuditsSucceed cfg env p r s)
    (hok : ((serve cfg p r).eval (AdminState.call env) s).1.success)
    (hchanged : ((serve cfg p r).eval (AdminState.call env) s).2.db.ownedBy t ≠ s.db.ownedBy t)
    (hentry : ∃ entry ∈ r.audit, entry.tenant = .owner) :
    ∃ event, Uuid.read event.tenantID = some t ∧
      s.db.Trail [event] ((serve cfg p r).eval (AdminState.call env) s).2.db := by
  obtain ⟨entry, hentry, htenant⟩ := hentry
  rcases owner_cases (p := p) hentry htenant with ⟨tenantID, howner⟩ | ⟨id, req, rfl⟩
  · have hread : Uuid.read tenantID = some t := by
      by_contra hne
      exact hchanged (serve_ownedBy howner hne)
    obtain ⟨events, hrecorded, htrail⟩ := serve_trail haudits hok
    rw [hentry, howner] at hrecorded
    obtain ⟨event, rfl, hdescribes⟩ := hrecorded
    refine ⟨event, ?_, htrail⟩
    rw [hdescribes.owner htenant tenantID rfl]
    exact hread
  · rcases updateQueueControl_ownedBy hsound haudits with hsame | ⟨event, hevent, htrail⟩
    · exact absurd hsame hchanged
    · refine ⟨event, ?_, htrail⟩
      rw [hevent]
      exact ht

end

end NotificationPlatform
