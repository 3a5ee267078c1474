import NotificationPlatform.HandlerCalls

/-!
# What the admin handlers put into the audit log

Every handler builds its audit event by hand, after its statement has succeeded. The events differ
in the tenant they name: that of the row the handler has written, that of the principal, or none at
all. Some handlers write no event.
-/

namespace NotificationPlatform

open Lib Lib.Sql

/-- The tenant that a handler puts into its audit event: the one that owns the row it writes, the
one of the principal, or none. -/
inductive AuditTenant where
  | owner
  | caller
  | missing
  deriving DecidableEq, Repr

/-- The action of an audit event, and the tenant that the handler puts into it. -/
structure AuditEntry where
  action : String
  tenant : AuditTenant

/-- What the handler of a request writes into the audit log, if it writes an event. -/
def AdminRequest.audit : AdminRequest → Option AuditEntry
  | .createContact _ => some ⟨"contact.create", .owner⟩
  | .updateContact _ _ => some ⟨"contact.update", .missing⟩
  | .deleteContact _ => some ⟨"contact.delete", .missing⟩
  | .createGroup _ => some ⟨"contact_group.create", .owner⟩
  | .deleteGroup _ => some ⟨"contact_group.delete", .missing⟩
  | .addGroupMember _ _ => some ⟨"group_member.add", .caller⟩
  | .removeGroupMember _ _ => some ⟨"group_member.remove", .caller⟩
  | .createTemplate _ _ => some ⟨"template.create", .owner⟩
  | .updateTemplate _ _ => some ⟨"template.update", .missing⟩
  | .deleteTemplate _ => some ⟨"template.delete", .missing⟩
  | .createCampaign _ => some ⟨"campaign.create", .owner⟩
  | .updateCampaign _ _ => some ⟨"campaign.update", .missing⟩
  | .approveCampaign _ => some ⟨"campaign.approve", .missing⟩
  | .sendCampaign _ => some ⟨"campaign.send", .missing⟩
  | .cancelCampaign _ => some ⟨"campaign.cancel", .missing⟩
  | .createProviderConfig _ => some ⟨"provider_config.create", .owner⟩
  | .updateProviderConfig _ _ => some ⟨"provider_config.update", .missing⟩
  | .deleteProviderConfig _ => some ⟨"provider_config.delete", .missing⟩
  | .createAPIKey _ _ => some ⟨"api_key.create", .owner⟩
  | .revokeAPIKey _ => some ⟨"api_key.revoke", .missing⟩
  | .updateFeature _ _ => some ⟨"feature.update", .caller⟩
  | .updateChannel _ _ => some ⟨"channel.update", .missing⟩
  | .updateFeatureCatalog _ _ | .updatePlatformChannel _ _ | .updateProviderType _ _ => none
  | .updateQueueControl _ _ => some ⟨"queue_control.update", .owner⟩
  | .markInAppRead _ | .markAllInAppRead => none
  | .updateTenantSettings _ _ => some ⟨"tenant.settings.update", .owner⟩

/-- The tenant whose rows a request writes, where the request itself names it. -/
def AdminRequest.owner (p : Principal) : AdminRequest → Option String
  | .createContact req => some (effectiveTenant p req.tenantID)
  | .createGroup req => some (effectiveTenant p req.tenantID)
  | .createTemplate tenantID _ => some (effectiveTenant p tenantID)
  | .createCampaign req => some (effectiveTenant p req.tenantID)
  | .createProviderConfig req => some (effectiveTenant p req.tenantID)
  | .createAPIKey _ req => some (effectiveTenant p req.tenantID)
  | .updateTenantSettings id _ => some id
  | _ => none

/-- The event is the one of the entry, of a principal who writes rows of `owner`. -/
structure AuditEntry.Describes (entry : AuditEntry) (p : Principal) (owner : Option String)
    (event : AuditEvent) : Prop where
  action : event.action = entry.action
  owner : entry.tenant = .owner → ∀ tenantID ∈ owner, event.tenantID = tenantID
  caller : entry.tenant = .caller → event.tenantID = p.tenantID
  missing : entry.tenant = .missing → event.tenantID = ""

def EventsFor (p : Principal) (owner : Option String) (entry : Option AuditEntry)
    (events : List AuditEvent) : Prop :=
  match entry with
  | none => events = []
  | some entry => ∃ event, events = [event] ∧ entry.Describes p owner event

/-- The route's event names tenant `t` when it writes rows of `t`. -/
def AuditEntry.names (entry : AuditEntry) (p : Principal) (t : String) : Prop :=
  match entry.tenant with
  | .owner => True
  | .caller => Uuid.read p.tenantID = some t
  | .missing => False

structure AuditedBy (event : AuditEvent) (row : Row Value) : Prop where
  action : row "action" = .text event.action
  tenant : readColumn "tenant_id" (.ofText event.tenantID) = some (row "tenant_id")

def AdminDb.Trail (events : List AuditEvent) (db db' : AdminDb) : Prop :=
  ∃ rows, db' .auditLogs = db .auditLogs ++ rows ∧ List.Forall₂ AuditedBy events rows

def AdminDb.Logs (P : Row Value → Prop) (db db' : AdminDb) : Prop :=
  ∃ rows, db' .auditLogs = db .auditLogs ++ rows ∧ ∃ row ∈ rows, P row

theorem readColumn_ofText_iff {tenantID t : String} :
    readColumn "tenant_id" (.ofText tenantID) = some (.text t) ↔ Uuid.read tenantID = some t := by
  unfold Value.ofText
  split
  · next hempty =>
      subst hempty
      have hnone : Uuid.read "" = none := by decide
      simp [readColumn, hnone]
  · simp [readColumn, uuidColumns]

namespace AdminDb

variable {db db' db'' : AdminDb} {events : List AuditEvent}

theorem Trail.refl (db : AdminDb) : Trail [] db db := ⟨[], by simp, .nil⟩

theorem Trail.of_eq (h : Trail events db db') (heq : db'' .auditLogs = db' .auditLogs) :
    Trail events db db'' := by
  obtain ⟨rows, hrows, hall⟩ := h
  exact ⟨rows, heq.trans hrows, hall⟩

theorem Trail.insert {id : String} {now : Int} {event : AuditEvent} (h : Trail events db db')
    (hinsert : db'.insertAudit id now event = some db'') :
    Trail (events ++ [event]) db db'' := by
  obtain ⟨rows, hrows, hall⟩ := h
  obtain ⟨tenant, htenant, hrow⟩ := insertAudit_eq_some hinsert
  obtain ⟨-, rfl⟩ := adminEngine.insert_cases hrow
  refine ⟨rows ++ [auditRow id now tenant event], ?_, ?_⟩
  · dsimp only
    rw [if_pos rfl, hrows, List.append_assoc]
  · apply List.rel_append hall
    exact .cons ⟨rfl, htenant⟩ .nil

theorem Trail.not_logs (h : Trail [] db db') (P : Row Value → Prop) : ¬Logs P db db' := by
  rintro ⟨rows, hrows, row, hrow, -⟩
  obtain ⟨none, hnone, hall⟩ := h
  cases hall with
  | nil =>
      have hempty : rows = [] := List.append_cancel_left (hrows.symm.trans hnone)
      simp [hempty] at hrow

theorem Trail.logs_iff {event : AuditEvent} (h : Trail [event] db db') :
    ∃ row, AuditedBy event row ∧ ∀ P : Row Value → Prop, Logs P db db' ↔ P row := by
  obtain ⟨rows, hrows, hall⟩ := h
  cases hall with
  | @cons _ row _ rest haudited hrest =>
      cases hrest
      refine ⟨row, haudited, fun P => ⟨?_, fun hrow => ⟨[row], hrows, row, by simp, hrow⟩⟩⟩
      rintro ⟨rows', hrows', row', hrow', hP⟩
      have hsame : rows' = [row] := List.append_cancel_left (hrows'.symm.trans hrows)
      rw [hsame, List.mem_singleton] at hrow'
      rwa [← hrow']

end AdminDb

def ofAction (audit : Option AuditEntry) (row : Row Value) : Prop :=
  ∀ entry ∈ audit, row "action" = .text entry.action

def ofActionIn (audit : Option AuditEntry) (t : String) (row : Row Value) : Prop :=
  ofAction audit row ∧ row "tenant_id" = .text t

section

variable {p : Principal} {owner : Option String} {audit : Option AuditEntry}
  {events : List AuditEvent} {db db' : AdminDb} {t : String}

private theorem AuditedBy.ofAction {event : AuditEvent} {row : Row Value} {entry : AuditEntry}
    (h : AuditedBy event row) (hdescribes : entry.Describes p owner event) :
    ofAction (some entry) row := by
  intro e he
  obtain rfl := Option.mem_some.mp he
  rw [h.action, hdescribes.action]

private theorem AuditedBy.names_iff {event : AuditEvent} {row : Row Value}
    (h : AuditedBy event row) : row "tenant_id" = .text t ↔ Uuid.read event.tenantID = some t := by
  rw [← readColumn_ofText_iff, h.tenant, Option.some_inj]

theorem EventsFor.logs_iff (h : EventsFor p owner audit events)
    (htrail : db.Trail events db') : db.Logs (ofAction audit) db' ↔ audit.isSome = true := by
  cases audit with
  | none =>
      obtain rfl : events = [] := h
      simp [htrail.not_logs]
  | some entry =>
      obtain ⟨event, rfl, hdescribes⟩ := h
      obtain ⟨row, haudited, hlogs⟩ := htrail.logs_iff
      rw [hlogs]
      simp [haudited.ofAction hdescribes]

/-- The log names the tenant exactly when the entry does, given that an event for the owner of the
written rows is one for `t`. -/
theorem EventsFor.logsIn_iff (h : EventsFor p owner audit events) (htrail : db.Trail events db')
    (howner : (∃ entry ∈ audit, entry.tenant = .owner) →
      ∃ event, Uuid.read event.tenantID = some t ∧ db.Trail [event] db') :
    db.Logs (ofActionIn audit t) db' ↔ ∃ entry ∈ audit, entry.names p t := by
  cases audit with
  | none =>
      obtain rfl : events = [] := h
      simp [htrail.not_logs]
  | some entry =>
      obtain ⟨event, rfl, hdescribes⟩ := h
      obtain ⟨row, haudited, hlogs⟩ := htrail.logs_iff
      have hrow : db.Logs (ofActionIn (some entry) t) db' ↔ Uuid.read event.tenantID = some t := by
        rw [hlogs, ← haudited.names_iff]
        exact and_iff_right (haudited.ofAction hdescribes)
      rw [hrow]
      simp only [Option.mem_some, exists_eq_left', AuditEntry.names]
      cases htenant : entry.tenant with
      | owner =>
          obtain ⟨event', hevent', htrail'⟩ := howner ⟨entry, rfl, htenant⟩
          -- both events are the one new row
          obtain ⟨row', haudited', hlogs'⟩ := htrail'.logs_iff
          have hnamed : row "tenant_id" = .text t := by
            rw [← hlogs fun r => r "tenant_id" = .text t, hlogs']
            exact haudited'.names_iff.mpr hevent'
          simp [haudited.names_iff.mp hnamed]
      | caller => simp [hdescribes.caller htenant]
      | missing =>
          have hnone : Uuid.read "" = none := by decide
          simp [hdescribes.missing htenant, hnone]

end

def AdminCall.quiet : AdminCall → Prop
  | .exec (.update table _ _) _ | .exec (.delete table _) _ => table ≠ .auditLogs
  | .insert table _ _ => table ≠ .auditLogs
  | .audit _ => False
  | _ => True

inductive Logging : List AuditEvent → (c : AdminCall) → (AdminReply c → List AuditEvent) → Prop
  | quiet {g : List AuditEvent} {c : AdminCall} (h : c.quiet) : Logging g c (fun _ => g)
  | audit {g : List AuditEvent} (event : AuditEvent) :
      Logging g (.audit event) (fun _ => g ++ [event])

def JsonResponse.success (r : JsonResponse) : Prop := r.status / 100 = 2

/-- A handler that succeeds has written the event of the entry, and nothing before it. -/
abbrev Audits (p : Principal) (owner : Option String) (entry : Option AuditEntry)
    (code : AdminCode JsonResponse) : Prop :=
  Prog.Follows Logging (fun g r => r.success → EventsFor p owner entry g) [] code

section

variable {p : Principal} {owner : Option String} {entry : AuditEntry} {optional : Option AuditEntry}

theorem JsonResponse.error_not_success {status : Nat} (message : String) (h : status / 100 ≠ 2) :
    ¬(JsonResponse.error status message).success := h

private theorem audits_error {status : Nat} (message : String) (h : status / 100 ≠ 2) :
    Audits p owner optional (.ret (.error status message)) :=
  fun hok => absurd hok (JsonResponse.error_not_success message h)

private theorem audits_event {event : AuditEvent} (h : entry.Describes p owner event)
    (r : JsonResponse) : Audits p owner (some entry) (audit event >>= fun _ => .ret r) :=
  Prog.follows_call _ (.audit event) fun _ _ => ⟨event, rfl, h⟩

private theorem audits_answerAffected {event : AuditEvent} (h : entry.Describes p owner event)
    (r : Except Err Nat) (failed missing done : String) :
    Audits p owner (some entry) (answerAffected r failed missing event done) := by
  unfold answerAffected
  split
  · exact audits_error failed (by decide)
  · exact audits_error missing (by decide)
  · exact audits_event h _

private theorem audits_answerCreated {failed : Err → JsonResponse} {event : String → AuditEvent}
    (hfailed : ∀ e, ¬(failed e).success) (h : ∀ id, entry.Describes p owner (event id))
    (r : Except Err String) (done : String) :
    Audits p owner (some entry) (answerCreated r failed event done) := by
  unfold answerCreated
  split
  · exact fun hok => absurd hok (hfailed _)
  · exact audits_event (h _) _

private theorem audits_affecting {st : Sql.Stmt AdminTable Value} {args : List Value}
    (hquiet : (AdminCall.exec st args).quiet) {event : AuditEvent}
    (h : entry.Describes p owner event) (failed missing done : String) :
    Audits p owner (some entry)
      (write st args >>= fun r => answerAffected r failed missing event done) :=
  Prog.follows_call _ (.quiet hquiet) fun r => audits_answerAffected h r failed missing done

private theorem audits_updating {table : AdminTable} (htable : table ≠ .auditLogs)
    {sets conds : Terms Value} {args : List Value} {event : AuditEvent}
    (h : entry.Describes p owner event) (failed missing done : String) :
    Audits p owner (some entry) (write (.update table sets conds) args >>= fun r =>
      answerAffected r failed missing event done) := by
  have hquiet : (AdminCall.exec (.update table sets conds) args).quiet := htable
  exact audits_affecting hquiet h failed missing done

private theorem audits_deleting {table : AdminTable} (htable : table ≠ .auditLogs) {id : String}
    {event : AuditEvent} (h : entry.Describes p owner event) (failed missing done : String) :
    Audits p owner (some entry) (deleteLimited table p id >>= fun r =>
      answerAffected r failed missing event done) := by
  have hquiet : ∀ (conds : Terms Value) (args : List Value),
      (AdminCall.exec (.delete table conds) args).quiet := fun _ _ => htable
  exact audits_affecting (hquiet _ _) h failed missing done

private theorem audits_creating {table : AdminTable} (htable : table ≠ .auditLogs)
    {values : Terms Value} {args : List Value} {failed : Err → JsonResponse}
    (hfailed : ∀ e, ¬(failed e).success) {event : String → AuditEvent}
    (h : ∀ id, entry.Describes p owner (event id)) (done : String) :
    Audits p owner (some entry)
      (insertRow table values args >>= fun r => answerCreated r failed event done) :=
  Prog.follows_call _ (.quiet htable) fun r => audits_answerCreated hfailed h r done

private theorem createFailed_not_success (cfg : AdminConfig) (e : Err) :
    ¬(JsonResponse.createFailed cfg e).success := by
  intro h
  exact absurd h (by decide : ¬500 / 100 = 2)

theorem describes_owner {action tenantID : String} {event : AuditEvent}
    (haction : event.action = action) (h : event.tenantID = tenantID) :
    AuditEntry.Describes ⟨action, .owner⟩ p (some tenantID) event where
  action := haction
  owner := by
    intro _ t ht
    rw [h, Option.mem_some.mp ht]
  caller := by simp
  missing := by simp

theorem describes_caller {action : String} {event : AuditEvent}
    (haction : event.action = action) (h : event.tenantID = p.tenantID) :
    AuditEntry.Describes ⟨action, .caller⟩ p owner event where
  action := haction
  owner := by simp
  caller := fun _ => h
  missing := by simp

theorem describes_missing {action : String} {event : AuditEvent}
    (haction : event.action = action) (h : event.tenantID = "") :
    AuditEntry.Describes ⟨action, .missing⟩ p owner event where
  action := haction
  owner := by simp
  caller := by simp
  missing := fun _ => h

private theorem createContact_audits (cfg : AdminConfig) (req : NewContact) :
    Audits p (some (effectiveTenant p req.tenantID)) (some ⟨"contact.create", .owner⟩)
      (createContact cfg p req) := by
  have htable : AdminTable.contacts ≠ .auditLogs := by decide
  apply audits_creating htable (createFailed_not_success cfg)
  exact fun _ => describes_owner rfl rfl

private theorem createGroup_audits (req : NewGroup) :
    Audits p (some (effectiveTenant p req.tenantID)) (some ⟨"contact_group.create", .owner⟩)
      (createGroup p req) := by
  unfold createGroup
  dsimp only
  split
  · exact audits_error _ (by decide)
  · apply audits_creating (by decide) (fun _ => JsonResponse.error_not_success _ (by decide))
    exact fun _ => describes_owner rfl rfl

private theorem addGroupMember_audits (groupID contactID : String) :
    Audits p owner (some ⟨"group_member.add", .caller⟩) (addGroupMember p groupID contactID) := by
  apply Prog.follows_call _ (.quiet trivial)
  intro r
  cases r with
  | error e => exact audits_error _ (by decide)
  | ok _ => exact audits_event (describes_caller rfl rfl) _

private theorem removeGroupMember_audits (groupID contactID : String) :
    Audits p owner (some ⟨"group_member.remove", .caller⟩)
      (removeGroupMember p groupID contactID) := by
  have htable : AdminTable.contactGroupMembers ≠ .auditLogs := by decide
  apply Prog.follows_call _ (.quiet htable)
  intro r
  cases r with
  | error e => exact audits_error _ (by decide)
  | ok _ => exact audits_event (describes_caller rfl rfl) _

private theorem createTemplate_audits (cfg : AdminConfig) (tenantID : String)
    (req : TemplateBody) :
    Audits p (some (effectiveTenant p tenantID)) (some ⟨"template.create", .owner⟩)
      (createTemplate cfg p tenantID req) := by
  unfold createTemplate
  dsimp only
  split
  · exact audits_error _ (by decide)
  · apply audits_creating (by decide) (createFailed_not_success cfg)
    exact fun _ => describes_owner rfl rfl

private theorem updateTemplate_audits (id : String) (req : TemplateBody) :
    Audits p owner (some ⟨"template.update", .missing⟩) (updateTemplate p id req) := by
  unfold updateTemplate
  split
  · exact audits_error _ (by decide)
  · apply audits_updating (by decide)
    exact describes_missing rfl rfl

private theorem createCampaign_audits (cfg : AdminConfig) (req : NewCampaign) :
    Audits p (some (effectiveTenant p req.tenantID)) (some ⟨"campaign.create", .owner⟩)
      (createCampaign cfg p req) := by
  unfold createCampaign
  dsimp only
  split
  · exact audits_error _ (by decide)
  · apply audits_creating (by decide) (createFailed_not_success cfg)
    exact fun _ => describes_owner rfl rfl

private theorem campaignStatusTransition_audits (id : String) (action : CampaignAction) :
    Audits p owner (some ⟨action.auditAction, .missing⟩)
      (campaignStatusTransition p id action) := by
  apply audits_updating (by decide)
  exact describes_missing rfl rfl

private theorem createProviderConfig_audits (cfg : AdminConfig) (req : NewProviderConfig) :
    Audits p (some (effectiveTenant p req.tenantID)) (some ⟨"provider_config.create", .owner⟩)
      (createProviderConfig cfg p req) := by
  unfold createProviderConfig
  dsimp only
  split
  · exact audits_error _ (by decide)
  · apply Prog.follows_call _ (.quiet trivial)
    intro r
    cases r with
    | error e => exact audits_error _ (by decide)
    | ok encrypted =>
        apply audits_creating (by decide) (createFailed_not_success cfg)
        exact fun _ => describes_owner rfl rfl

private theorem updateProviderConfig_audits (id : String) (req : ProviderConfigUpdate) :
    Audits p owner (some ⟨"provider_config.update", .missing⟩) (updateProviderConfig p id req) := by
  have hfinish : ∀ b : Builder, Audits p owner (some ⟨"provider_config.update", .missing⟩)
      (finishProviderConfig p id b) := by
    intro b
    apply audits_updating (by decide)
    exact describes_missing rfl rfl
  unfold updateProviderConfig
  dsimp only
  split
  · apply Prog.follows_call _ (.quiet trivial)
    intro r
    cases r with
    | error e => exact audits_error _ (by decide)
    | ok encrypted => exact hfinish _
  · exact hfinish _

private theorem createAPIKey_audits (cfg : AdminConfig) (now : Int) (req : NewAPIKey) :
    Audits p (some (effectiveTenant p req.tenantID)) (some ⟨"api_key.create", .owner⟩)
      (createAPIKey cfg now p req) := by
  unfold createAPIKey
  dsimp only
  split
  · exact audits_error _ (by decide)
  split
  · exact audits_error _ (by decide)
  · apply Prog.follows_call _ (.quiet trivial)
    intro r
    cases r with
    | error e => exact audits_error _ (by decide)
    | ok raw =>
        have htable : AdminTable.tenantAPIKeys ≠ .auditLogs := by decide
        apply Prog.follows_call _ (.quiet htable)
        intro r
        cases r with
        | error e => exact audits_error _ (by decide)
        | ok id => exact audits_event (describes_owner rfl rfl) _

private theorem updateCatalog_audits {table : AdminTable} (htable : table ≠ .auditLogs)
    {column key : String} (toValue : Bool → Value) (missing done name : String)
    (enabled : Option Bool) :
    Audits p owner none (updateCatalog table column key toValue missing done p name enabled) := by
  unfold updateCatalog
  split
  · cases enabled with
    | none => exact audits_error _ (by decide)
    | some enabled =>
        apply Prog.follows_call _ (.quiet htable)
        intro r
        match r with
        | .error _ => exact audits_error _ (by decide)
        | .ok 0 => exact audits_error _ (by decide)
        | .ok (_ + 1) => exact fun _ => rfl
  · exact audits_error _ (by decide)

private theorem updateQueueControl_audits (id : String) (req : QueueControlUpdate) :
    Audits p none (some ⟨"queue_control.update", .owner⟩) (updateQueueControl p id req) := by
  apply Prog.follows_call _ (.quiet trivial)
  intro r
  dsimp only [Prog.bind]
  split
  · next tenantID =>
      split
      · exact audits_error _ (by decide)
      · split
        · exact audits_error _ (by decide)
        · have htable : AdminTable.tenantQueueControls ≠ .auditLogs := by decide
          apply Prog.follows_call _ (.quiet htable)
          intro r
          cases r with
          | error e => exact audits_error _ (by decide)
          | ok _ => exact audits_event ⟨rfl, by simp, by simp, by simp⟩ _
  · exact audits_error _ (by decide)

private theorem markInAppRead_audits (id : String) :
    Audits p owner none (markInAppRead p id) := by
  have htable : AdminTable.inAppNotifications ≠ .auditLogs := by decide
  apply Prog.follows_call _ (.quiet htable)
  intro r
  cases r with
  | error e => exact audits_error _ (by decide)
  | ok _ => exact fun _ => rfl

private theorem markAllInAppRead_audits : Audits p owner none (markAllInAppRead p) := by
  have htable : AdminTable.inAppNotifications ≠ .auditLogs := by decide
  apply Prog.follows_call _ (.quiet htable)
  intro r
  cases r with
  | error e => exact audits_error _ (by decide)
  | ok _ => exact fun _ => rfl

private theorem updateTenantSettings_audits (id : String) (req : TenantSettings) :
    Audits p (some id) (some ⟨"tenant.settings.update", .owner⟩)
      (updateTenantSettings p id req) := by
  have hsave : ∀ settings : GoMap, Audits p (some id) (some ⟨"tenant.settings.update", .owner⟩)
      (saveSettings p id settings) := by
    intro settings
    have htable : AdminTable.tenants ≠ .auditLogs := by decide
    apply Prog.follows_call _ (.quiet htable)
    intro r
    cases r with
    | error e => exact audits_error _ (by decide)
    | ok _ => exact audits_event (describes_owner rfl rfl) _
  unfold updateTenantSettings
  split
  · exact audits_error _ (by decide)
  split
  · exact audits_error _ (by decide)
  · apply Prog.follows_call _ (.quiet trivial)
    intro r
    dsimp only [Prog.bind]
    split
    · exact hsave none
    · exact audits_error _ (by decide)
    · exact hsave _

end

theorem serve_audits (cfg : AdminConfig) (p : Principal) (r : AdminRequest) :
    Audits p (r.owner p) r.audit (serve cfg p r) := by
  cases r with
  | createContact req => exact createContact_audits cfg req
  | updateContact id req =>
      apply audits_updating (by decide)
      exact describes_missing rfl rfl
  | deleteContact id =>
      apply audits_deleting (by decide)
      exact describes_missing rfl rfl
  | createGroup req => exact createGroup_audits req
  | deleteGroup id =>
      apply audits_deleting (by decide)
      exact describes_missing rfl rfl
  | addGroupMember groupID contactID => exact addGroupMember_audits groupID contactID
  | removeGroupMember groupID contactID => exact removeGroupMember_audits groupID contactID
  | createTemplate tenantID req => exact createTemplate_audits cfg tenantID req
  | updateTemplate id req => exact updateTemplate_audits id req
  | deleteTemplate id =>
      apply audits_deleting (by decide)
      exact describes_missing rfl rfl
  | createCampaign req => exact createCampaign_audits cfg req
  | updateCampaign id req =>
      apply audits_updating (by decide)
      exact describes_missing rfl rfl
  | approveCampaign id => exact campaignStatusTransition_audits id _
  | sendCampaign id => exact campaignStatusTransition_audits id _
  | cancelCampaign id => exact campaignStatusTransition_audits id _
  | createProviderConfig req => exact createProviderConfig_audits cfg req
  | updateProviderConfig id req => exact updateProviderConfig_audits id req
  | deleteProviderConfig id =>
      apply audits_deleting (by decide)
      exact describes_missing rfl rfl
  | createAPIKey now req => exact createAPIKey_audits cfg now req
  | revokeAPIKey id =>
      apply audits_updating (by decide)
      exact describes_missing rfl rfl
  | updateFeature id enabled =>
      apply audits_updating (by decide)
      exact describes_caller rfl rfl
  | updateChannel id req =>
      apply audits_updating (by decide)
      exact describes_missing rfl rfl
  | updateFeatureCatalog identifier enabled => exact updateCatalog_audits (by decide) _ _ _ _ _
  | updatePlatformChannel channel enabled => exact updateCatalog_audits (by decide) _ _ _ _ _
  | updateProviderType provider enabled => exact updateCatalog_audits (by decide) _ _ _ _ _
  | updateQueueControl id req => exact updateQueueControl_audits id req
  | markInAppRead id => exact markInAppRead_audits id
  | markAllInAppRead => exact markAllInAppRead_audits
  | updateTenantSettings id req => exact updateTenantSettings_audits id req

def AuditReply : (c : AdminCall) → AdminReply c → Prop
  | .audit _, r => r = .ok ()
  | _, _ => True

section

variable {env : Nat → AdminOutcome} {s : AdminState} {c : AdminCall}

theorem exec_log {o : AdminOutcome} {db db' : AdminDb} {st : Sql.Stmt AdminTable Value}
    {args : List Value} {n : Nat} (hquiet : (AdminCall.exec st args).quiet)
    (h : db.perform o (.exec st args) = .ok (n, db')) : db' .auditLogs = db .auditLogs := by
  rcases adminEngine.exec_cases (exec_of_perform h) with
    ⟨table, _, _, bsets, bconds, rfl, -, -, rfl⟩ | ⟨table, _, bconds, rfl, -, rfl⟩
  · have hother : AdminTable.auditLogs ≠ table := Ne.symm hquiet
    have hsame : adminEngine.updated table bsets bconds .auditLogs = some := by
      funext row
      simp [Engine.updated, hother]
    dsimp only
    rw [hsame, List.filterMap_some]
  · have hother : AdminTable.auditLogs ≠ table := Ne.symm hquiet
    -- no reference leads from the log to another table
    have hchild : ∀ ref ∈ adminEngine.references, ref.child ≠ AdminTable.auditLogs := by decide
    have hsame : adminEngine.remaining db table bconds .auditLogs = some := by
      funext row
      have hnone : (adminEngine.references.filter fun ref => decide (ref.parent = table) &&
          decide (ref.child = AdminTable.auditLogs) &&
            adminEngine.refers ((db table).filter (adminEngine.selects bconds)) ref row) = [] := by
        rw [List.filter_eq_nil_iff]
        intro ref href
        simp [hchild ref href]
      have hrow : assign ([] : List (String × Value)) row = row := rfl
      simp [Engine.remaining, hother, Engine.release, hnone, hrow]
    dsimp only
    rw [hsame, List.filterMap_some]

theorem AdminCall.quiet.log (h : c.quiet) : (s.call env c).2.db .auditLogs = s.db .auditLogs := by
  rcases call_cases env c s with ⟨e, heq⟩ | ⟨r, db', -, hperform, heq⟩
  · rw [heq]
  · rw [heq]
    dsimp only
    cases c with
    | exec st args => exact exec_log h hperform
    | insert table values args =>
        obtain ⟨_, -, -, hinsert⟩ := perform_insert hperform
        obtain ⟨-, rfl⟩ := adminEngine.insert_cases hinsert
        exact if_neg (Ne.symm h)
    | insertMember m args =>
        simp only [AdminDb.perform] at hperform
        split at hperform
        · next hinsert =>
            obtain ⟨-, rfl⟩ := Prod.mk.inj (Except.ok.inj hperform)
            obtain ⟨_, _, _, _, _, rows, -, -, -, -, -, -, rfl⟩ :=
              AdminDb.insertMember_cases hinsert
            exact (AdminDb.addMembers_cases rows s.db).1 _ (by decide)
        · simp at hperform
    | selectRow table columns conds args =>
        simp only [AdminDb.perform] at hperform
        split at hperform
        · simp at hperform
        · split at hperform
          · obtain ⟨-, rfl⟩ := Prod.mk.inj (Except.ok.inj hperform)
            rfl
          · simp at hperform
    | encrypt plain =>
        obtain ⟨-, rfl⟩ := Prod.mk.inj (Except.ok.inj hperform)
        rfl
    | randomToken kind =>
        obtain ⟨-, rfl⟩ := Prod.mk.inj (Except.ok.inj hperform)
        rfl
    | audit event => exact h.elim

theorem trail_call {event : AuditEvent} {events : List AuditEvent} {db : AdminDb}
    (htrail : db.Trail events s.db) (h : AuditReply (.audit event) (s.call env (.audit event)).1) :
    db.Trail (events ++ [event]) (s.call env (.audit event)).2.db := by
  rcases call_cases env (.audit event) s with ⟨e, heq⟩ | ⟨r, db', -, hperform, heq⟩
  · rw [heq] at h
    simp [AuditReply] at h
  · rw [heq]
    simp only [AdminDb.perform] at hperform
    split at hperform
    · next hinsert =>
        obtain ⟨-, rfl⟩ := Prod.mk.inj (Except.ok.inj hperform)
        exact htrail.insert hinsert
    · simp at hperform

end

def AuditsSucceed (cfg : AdminConfig) (env : Nat → AdminOutcome) (p : Principal) (r : AdminRequest)
    (s : AdminState) : Prop :=
  (serve cfg p r).Ends (AdminState.call env) AuditReply (fun _ _ => True) s

theorem serve_trail {cfg : AdminConfig} {env : Nat → AdminOutcome} {p : Principal}
    {r : AdminRequest} {s : AdminState} (haudits : AuditsSucceed cfg env p r s)
    (hok : ((serve cfg p r).eval (AdminState.call env) s).1.success) :
    ∃ events, EventsFor p (r.owner p) r.audit events ∧
      s.db.Trail events ((serve cfg p r).eval (AdminState.call env) s).2.db := by
  obtain ⟨events, hrecorded, htrail⟩ := (serve_audits cfg p r).eval_of_ends
    (I := fun g s' => s.db.Trail g s'.db) (fun g c f s' hlogging hreply htrail => by
      cases hlogging with
      | quiet hquiet => exact htrail.of_eq hquiet.log
      | audit event => exact trail_call htrail hreply) haudits (.refl _)
  exact ⟨events, hrecorded hok, htrail⟩

end NotificationPlatform
