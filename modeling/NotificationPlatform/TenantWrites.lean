import Mathlib.Data.List.Pairwise
import NotificationPlatform.AdminHandlers

/-!
# Tenants write only their own rows

Every handler keeps to a protocol (`Permitted`): a statement it makes for a principal of a tenant
names that tenant in a condition whose placeholder has the tenant as its argument, or changes a
queue control whose tenant the handler has just read. A call that keeps to the protocol leaves
the rows of other tenants alone; deleting a contact can reach other rows only through references,
and those stay within the group members as long as the database is sound.
-/

namespace NotificationPlatform

open Lib Lib.Sql

def Plain (sets : Terms Value) : Prop := ∀ c ∈ sets.map Prod.fst, c ∉ uuidColumns

def Limited (p : Principal) (table : AdminTable) (conds : Terms Value) (args : List Value) :
    Prop :=
  p.isPlatform = false →
    ∃ n, (table.ownerColumn, .param (n + 1)) ∈ conds ∧ args[n]? = some (.text p.tenantID)

def insertedTables : List AdminTable :=
  [.contacts, .contactGroups, .notificationTemplates, .campaigns, .tenantProviderConfigs,
   .tenantAPIKeys]

/-- What the query of `UpdateQueueControl` tells: the control is one of the own tenant. -/
def learnControl (p : Principal) (id : String) : Except Err (List Value) → Option String
  | .ok [.text t] => if t = p.tenantID then some id else none
  | _ => none

/-- The calls a handler may make for a principal; the state is the queue control of which the
handler knows that it belongs to the tenant. -/
inductive Permitted (p : Principal) :
    Option String → (c : AdminCall) → (AdminReply c → Option String) → Prop
  | update {g : Option String} {table : AdminTable} {sets conds : Terms Value}
      {args : List Value} (hplain : Plain sets) (hlimited : Limited p table conds args) :
      Permitted p g (.exec (.update table sets conds) args) (fun _ => g)
  | updateControl {g : Option String} {id : String} {sets conds : Terms Value}
      {args : List Value} {n : Nat} (hplain : Plain sets) (hcond : ("id", .param (n + 1)) ∈ conds)
      (harg : args[n]? = some (.text id)) (hknown : p.isPlatform = false → g = some id) :
      Permitted p g (.exec (.update .tenantQueueControls sets conds) args) (fun _ => g)
  | delete {g : Option String} {table : AdminTable} {conds : Terms Value} {args : List Value}
      (hlimited : Limited p table conds args) :
      Permitted p g (.exec (.delete table conds) args) (fun _ => g)
  | insert {g : Option String} {table : AdminTable} {values : Terms Value} {v : Value}
      {args : List Value} (htable : table ∈ insertedTables) (hplain : Plain values)
      (htenant : p.isPlatform = false → v = .text p.tenantID ∨ v = .ofText p.tenantID) :
      Permitted p g (.insert table (("tenant_id", .param 1) :: values) (v :: args)) (fun _ => g)
  | insertMember {g : Option String} (groupID contactID : String) :
      Permitted p g (.insertMember (memberInsert p groupID contactID).1
        (memberInsert p groupID contactID).2) (fun _ => g)
  | selectControl {g : Option String} (id : String) :
      Permitted p g (.selectRow .tenantQueueControls ["tenant_id"] [("id", .param 1)] [.text id])
        (learnControl p id)
  | selectRow {g : Option String} (table : AdminTable) (columns : List String)
      (conds : Terms Value) (args : List Value) :
      Permitted p g (.selectRow table columns conds args) (fun _ => g)
  | encrypt {g : Option String} (plain : String) : Permitted p g (.encrypt plain) (fun _ => g)
  | randomToken {g : Option String} (kind : String) :
      Permitted p g (.randomToken kind) (fun _ => g)
  | audit {g : Option String} (event : AuditEvent) : Permitted p g (.audit event) (fun _ => g)

abbrev Confined {α : Type} (p : Principal) (g : Option String) (code : AdminCode α) : Prop :=
  Prog.Follows (Permitted p) (fun _ _ => True) g code

/-- The placeholders written so far are those of the arguments, and no identifying column is
assigned. -/
structure Builder.Numbered (b : Builder) : Prop where
  next : b.argN = b.args.length + 1
  plain : Plain b.sets

namespace Builder

variable {b : Builder}

theorem numbered_start : Builder.start.Numbered := ⟨rfl, by simp [start, Plain, uuidColumns]⟩

theorem Numbered.set (h : b.Numbered) (column : String) (hcolumn : column ∉ uuidColumns)
    (v : Value) : (b.set column v).Numbered := by
  constructor
  · simp [Builder.set, h.next]
  · intro c hc
    simp only [Builder.set, List.map_append, List.mem_append, List.map_cons, List.map_nil,
      List.mem_singleton] at hc
    rcases hc with hc | rfl
    · exact h.plain c hc
    · exact hcolumn

theorem Numbered.setText (h : b.Numbered) (column : String) (hcolumn : column ∉ uuidColumns)
    (text : String) : (b.setText column text).Numbered := by
  unfold Builder.setText
  split
  · exact h.set column hcolumn _
  · exact h

theorem Numbered.setSome {α : Type} (h : b.Numbered) (column : String)
    (hcolumn : column ∉ uuidColumns) (toValue : α → Value) (field : Option α) :
    (b.setSome column toValue field).Numbered := by
  unfold Builder.setSome
  split
  · exact h.set column hcolumn _
  · exact h

theorem Numbered.setChecked {α : Type} (h : b.Numbered) {column : String}
    (hcolumn : column ∉ uuidColumns) {toValue : α → Value} {invalid : α → Bool} {message : String}
    {field : Option α} {b' : Builder}
    (hb' : b.setChecked column toValue invalid message field = .ok b') : b'.Numbered := by
  unfold Builder.setChecked at hb'
  split at hb'
  · split at hb'
    · simp at hb'
    · obtain rfl := Except.ok.inj hb'
      exact h.set column hcolumn _
  · obtain rfl := Except.ok.inj hb'
    exact h

theorem Numbered.cond_mem (h : b.Numbered) (column : String) (v : Value) :
    ∃ n, (column, .param (n + 1)) ∈ (b.cond column v).conds ∧
      (b.cond column v).args[n]? = some v :=
  ⟨b.args.length, by simp [Builder.cond, h.next], by simp [Builder.cond]⟩

theorem Numbered.cond (h : b.Numbered) (column : String) (v : Value) :
    (b.cond column v).Numbered :=
  ⟨by simp [Builder.cond, h.next], h.plain⟩

theorem Numbered.limited_plain (h : b.Numbered) (p : Principal) (id : String) :
    Plain (b.limited p id).sets := by
  unfold Builder.limited
  dsimp only
  split <;> exact h.plain

theorem Numbered.limited (h : b.Numbered) (p : Principal) (id : String) {table : AdminTable}
    (howner : table.ownerColumn = "tenant_id") :
    Limited p table (b.limited p id).conds (b.limited p id).args := by
  intro hp
  unfold Builder.limited
  simp only [hp, Bool.false_eq_true, if_false, howner]
  exact (h.cond "id" (.text id)).cond_mem "tenant_id" (.text p.tenantID)

end Builder

section

variable {p : Principal} {g : Option String}

theorem limited_tenantCond {table : AdminTable} (conds : Terms Value) (args : List Value)
    (howner : table.ownerColumn = "tenant_id") :
    Limited p table (conds ++ tenantCond p args.length) (args ++ tenantArg p) := by
  intro hp
  refine ⟨args.length, ?_, ?_⟩
  · simp [tenantCond, hp, howner]
  · simp [tenantArg, hp]

private theorem confined_audit (event : AuditEvent) : Confined p g (audit event) :=
  Prog.follows_call _ (.audit event) fun _ => trivial

private theorem confined_answerAffected (r : Except Err Nat) (failed missing : String)
    (event : AuditEvent) (done : String) :
    Confined p g (answerAffected r failed missing event done) := by
  unfold answerAffected
  split
  · exact trivial
  · exact trivial
  · exact (confined_audit event).bind fun _ _ _ => trivial

private theorem confined_answerCreated (r : Except Err String) (failed : Err → JsonResponse)
    (event : String → AuditEvent) (done : String) :
    Confined p g (answerCreated r failed event done) := by
  unfold answerCreated
  split
  · exact trivial
  · exact (confined_audit _).bind fun _ _ _ => trivial

private theorem confined_update {b : Builder} (h : b.Numbered) (id : String) {table : AdminTable}
    (howner : table.ownerColumn = "tenant_id") :
    Prog.Follows (Permitted p) (fun g' _ => g' = g) g ((b.limited p id).update table) :=
  Prog.follows_call _ (.update (h.limited_plain p id) (h.limited p id howner)) fun _ => rfl

private theorem confined_delete {table : AdminTable} (howner : table.ownerColumn = "tenant_id")
    (id : String) :
    Prog.Follows (Permitted p) (fun g' _ => g' = g) g (deleteLimited table p id) :=
  Prog.follows_call _ (.delete (limited_tenantCond [("id", .param 1)] [.text id] howner)) fun _ => rfl

private theorem confined_write {table : AdminTable} {sets conds : Terms Value}
    {args : List Value} (hplain : Plain sets) (hlimited : Limited p table conds args) :
    Prog.Follows (Permitted p) (fun g' _ => g' = g) g (write (.update table sets conds) args) :=
  Prog.follows_call _ (.update hplain hlimited) fun _ => rfl

private theorem confined_affecting {code : AdminCode (Except Err Nat)}
    (h : Prog.Follows (Permitted p) (fun g' _ => g' = g) g code) (failed missing : String)
    (event : AuditEvent) (done : String) :
    Confined p g (code >>= fun r => answerAffected r failed missing event done) :=
  h.bind fun _ r hg => by
    subst hg
    exact confined_answerAffected r failed missing event done

private theorem tenant_value (tenantID : String) (hp : p.isPlatform = false) :
    Value.ofText (effectiveTenant p tenantID) = .text p.tenantID ∨
      Value.ofText (effectiveTenant p tenantID) = .ofText p.tenantID :=
  .inr (by simp [effectiveTenant, hp])

private theorem confined_creating {table : AdminTable} (htable : table ∈ insertedTables)
    {values : Terms Value} (hplain : Plain values) {v : Value} {args : List Value}
    (htenant : p.isPlatform = false → v = .text p.tenantID ∨ v = .ofText p.tenantID)
    (failed : Err → JsonResponse) (event : String → AuditEvent) (done : String) :
    Confined p g (insertRow table (("tenant_id", .param 1) :: values) (v :: args) >>= fun r =>
      answerCreated r failed event done) :=
  Prog.follows_call _ (.insert htable hplain htenant) fun r =>
    confined_answerCreated r failed event done

private theorem updateContact_confined (id : String) (req : ContactUpdate) :
    Confined p g (updateContact p id req) := by
  have h := ((Builder.numbered_start.setText "name" (by decide) req.name).setText "email"
    (by decide) req.email).setText "phone" (by decide) req.phone
  exact confined_affecting (confined_update h id rfl) _ _ _ _

private theorem createContact_confined (cfg : AdminConfig) (req : NewContact) :
    Confined p g (createContact cfg p req) := by
  apply confined_creating (by decide) _ (tenant_value req.tenantID)
  simp [Plain, uuidColumns]

private theorem createGroup_confined (req : NewGroup) : Confined p g (createGroup p req) := by
  unfold createGroup
  dsimp only
  split
  · exact trivial
  · apply confined_creating (by decide) _ (tenant_value req.tenantID)
    simp [Plain, uuidColumns]

private theorem addGroupMember_confined (groupID contactID : String) :
    Confined p g (addGroupMember p groupID contactID) := by
  refine Prog.follows_call _ (.insertMember groupID contactID) fun r => ?_
  cases r with
  | error e => exact trivial
  | ok _ => exact (confined_audit _).bind fun _ _ _ => trivial

private theorem removeGroupMember_confined (groupID contactID : String) :
    Confined p g (removeGroupMember p groupID contactID) := by
  have hlimited := @limited_tenantCond p .contactGroupMembers
    [("group_id", .param 1), ("contact_id", .param 2)] [.text groupID, .text contactID] rfl
  refine Prog.follows_call _ (.delete hlimited) fun r => ?_
  cases r with
  | error e => exact trivial
  | ok _ => exact (confined_audit _).bind fun _ _ _ => trivial

private theorem createTemplate_confined (cfg : AdminConfig) (tenantID : String)
    (req : TemplateBody) : Confined p g (createTemplate cfg p tenantID req) := by
  unfold createTemplate
  dsimp only
  split
  · exact trivial
  · apply confined_creating (by decide) _ (tenant_value tenantID)
    simp [Plain, uuidColumns]

private theorem updateTemplate_confined (id : String) (req : TemplateBody) :
    Confined p g (updateTemplate p id req) := by
  unfold updateTemplate
  split
  · exact trivial
  · refine confined_affecting (confined_write ?_ ?_) _ _ _ _
    · simp [Plain, uuidColumns]
    · exact limited_tenantCond [("id", .param 5)] [_, _, _, _, .text id] rfl

private theorem createCampaign_confined (cfg : AdminConfig) (req : NewCampaign) :
    Confined p g (createCampaign cfg p req) := by
  unfold createCampaign
  dsimp only
  split
  · exact trivial
  · apply confined_creating (by decide) _ (tenant_value req.tenantID)
    simp [Plain, uuidColumns]

private theorem updateCampaign_confined (id : String) (req : CampaignUpdate) :
    Confined p g (updateCampaign p id req) := by
  have h := ((Builder.numbered_start.setText "name" (by decide) req.name).setText "description"
    (by decide) req.description).setText "status" (by decide) req.status
  exact confined_affecting (confined_update h id rfl) _ _ _ _

private theorem campaignStatusTransition_confined (id : String) (action : CampaignAction) :
    Confined p g (campaignStatusTransition p id action) := by
  refine confined_affecting (confined_write ?_ ?_) _ _ _ _
  · simp [Plain, uuidColumns]
  · exact limited_tenantCond [("id", .param 1)] [.text id, _] rfl

private theorem createProviderConfig_confined (cfg : AdminConfig) (req : NewProviderConfig) :
    Confined p g (createProviderConfig cfg p req) := by
  unfold createProviderConfig
  dsimp only
  split
  · exact trivial
  · refine Prog.follows_call _ (.encrypt _) fun r => ?_
    cases r with
    | error e => exact trivial
    | ok encrypted =>
        apply confined_creating (by decide) _ (tenant_value req.tenantID)
        simp [Plain, uuidColumns]

private theorem updateProviderConfig_confined (id : String) (req : ProviderConfigUpdate) :
    Confined p g (updateProviderConfig p id req) := by
  have h := ((Builder.numbered_start.setText "provider" (by decide) req.provider).setSome
    "is_default" (by decide) Value.bool req.isDefault).setText "status" (by decide) req.status
  have hfinish : ∀ {b : Builder}, b.Numbered → Confined p g (finishProviderConfig p id b) :=
    fun hb => confined_affecting (confined_update hb id rfl) _ _ _ _
  unfold updateProviderConfig
  dsimp only
  split
  · refine Prog.follows_call _ (.encrypt _) fun r => ?_
    cases r with
    | error e => exact trivial
    | ok encrypted => exact hfinish (h.set "config_json" (by decide) _)
  · exact hfinish h

private theorem createAPIKey_confined (cfg : AdminConfig) (now : Int) (req : NewAPIKey) :
    Confined p g (createAPIKey cfg now p req) := by
  unfold createAPIKey
  dsimp only
  split
  · exact trivial
  split
  · exact trivial
  · refine Prog.follows_call _ (.randomToken _) fun r => ?_
    cases r with
    | error e => exact trivial
    | ok raw =>
        refine Prog.follows_call _ (.insert (by decide) ?_ ?_) fun r => ?_
        · simp [Plain, uuidColumns]
        · intro hp
          exact .inl (by simp [effectiveTenant, hp])
        · cases r with
          | error e => exact trivial
          | ok id => exact (confined_audit _).bind fun _ _ _ => trivial

private theorem revokeAPIKey_confined (id : String) : Confined p g (revokeAPIKey p id) := by
  refine confined_affecting (confined_write ?_ ?_) _ _ _ _
  · simp [Plain, uuidColumns]
  · exact limited_tenantCond [("id", .param 1)] [.text id, _] rfl

private theorem updateFeature_confined (id : String) (enabled : Bool) :
    Confined p g (updateFeature p id enabled) := by
  refine confined_affecting (confined_write ?_ ?_) _ _ _ _
  · simp [Plain, uuidColumns]
  · exact limited_tenantCond [("id", .param 1)] [.text id, _] rfl

private theorem updateChannel_confined (id : String) (req : ChannelUpdate) :
    Confined p g (updateChannel p id req) := by
  have h₁ := (Builder.numbered_start.setSome "enabled" (by decide) Value.bool req.enabled).setText
    "direction" (by decide) req.direction
  have h₂ := (h₁.setSome "rate_limit_per_second" (by decide) Value.int
    req.rateLimitPerSecond).setSome "daily_quota" (by decide) Value.int req.dailyQuota
  have h := h₂.setSome "priority" (by decide) Value.int req.priority
  exact confined_affecting (confined_update h id rfl) _ _ _ _

private theorem updateCatalog_confined {table : AdminTable} {column key : String}
    (hcolumn : column ∉ uuidColumns) (toValue : Bool → Value) (missing done name : String)
    (enabled : Option Bool) :
    Confined p g (updateCatalog table column key toValue missing done p name enabled) := by
  unfold updateCatalog
  split
  · next hplatform =>
      cases enabled with
      | none => exact trivial
      | some enabled =>
          refine Prog.follows_call _ (.update ?_ ?_) fun r => ?_
          · simpa [Plain] using ⟨hcolumn, by decide⟩
          · intro hp
            simp [hplatform] at hp
          · match r with
            | .error _ => exact trivial
            | .ok 0 => exact trivial
            | .ok (_ + 1) => exact trivial
  · exact trivial

private theorem markInAppRead_confined (id : String) : Confined p g (markInAppRead p id) := by
  refine Prog.follows_call _ (.update ?_ ?_) fun r => ?_
  · simp [Plain, uuidColumns]
  · exact fun _ => ⟨1, by simp [AdminTable.ownerColumn], rfl⟩
  · cases r <;> exact trivial

private theorem markAllInAppRead_confined : Confined p g (markAllInAppRead p) := by
  refine Prog.follows_call _ (.update ?_ ?_) fun r => ?_
  · simp [Plain, uuidColumns]
  · exact fun _ => ⟨0, by simp [AdminTable.ownerColumn], rfl⟩
  · cases r <;> exact trivial

theorem except_bind_ok {α β : Type} {x : Except String α} {f : α → Except String β} {b : β}
    (h : x.bind f = .ok b) : ∃ a, x = .ok a ∧ f a = .ok b := by
  cases x with
  | error e => simp [Except.bind] at h
  | ok a => exact ⟨a, rfl, h⟩

theorem numbered_queueControlSets {req : QueueControlUpdate} {b b' : Builder}
    (hb : b.Numbered) (h : queueControlSets req b = .ok b') : b'.Numbered := by
  obtain ⟨b₁, h₁, h⟩ := except_bind_ok h
  obtain ⟨b₂, h₂, h⟩ := except_bind_ok h
  obtain ⟨b₃, h₃, h⟩ := except_bind_ok h
  obtain rfl := Except.ok.inj h
  have hb₁ := hb.setChecked (by decide) h₁
  have hb₂ := hb₁.setChecked (by decide) h₂
  have hb₃ := hb₂.setChecked (by decide) h₃
  exact hb₃.setSome "notes" (by decide) _ _

private theorem updateQueueControl_confined (id : String) (req : QueueControlUpdate) :
    Confined p g (updateQueueControl p id req) := by
  refine Prog.follows_call _ (.selectControl id) fun r => ?_
  dsimp only [Prog.bind]
  split
  · next tenantID =>
      split
      · exact trivial
      · next hown =>
          have hknown : p.isPlatform = false → learnControl p id (.ok [.text tenantID]) = some id := by
            intro hp
            have htenant : tenantID = p.tenantID := by
              by_contra hne
              exact hown ⟨hp, hne⟩
            simp [learnControl, htenant]
          cases hsets : queueControlSets req
            ⟨[("updated_at", .now), ("updated_by", .param 1)], [], [.ofText p.userText], 2⟩ with
          | error message => exact trivial
          | ok b =>
              have hstart : Builder.Numbered
                  ⟨[("updated_at", .now), ("updated_by", .param 1)], [], [.ofText p.userText], 2⟩ :=
                ⟨rfl, by simp [Plain, uuidColumns]⟩
              have hb := numbered_queueControlSets hstart hsets
              obtain ⟨n, hcond, harg⟩ := hb.cond_mem "id" (.text id)
              refine Prog.follows_call _
                (.updateControl (hb.cond "id" (.text id)).plain hcond harg hknown) fun r => ?_
              cases r with
              | error e => exact trivial
              | ok _ => exact (confined_audit _).bind fun _ _ _ => trivial
  · exact trivial

private theorem updateTenantSettings_confined (id : String) (req : TenantSettings) :
    Confined p g (updateTenantSettings p id req) := by
  unfold updateTenantSettings
  split
  · exact trivial
  · next hown =>
      split
      · exact trivial
      · refine Prog.follows_call _ (.selectRow _ _ _ _) fun r => ?_
        have hsave : ∀ settings : GoMap, Confined p g (saveSettings p id settings) := by
          intro settings
          refine Prog.follows_call _ (.update ?_ ?_) fun r => ?_
          · simp [Plain, uuidColumns]
          · intro hp
            have hid : p.tenantID = id := by
              by_contra hne
              exact hown ⟨hp, hne⟩
            exact ⟨1, by simp [AdminTable.ownerColumn], by simp [hid]⟩
          · cases r with
            | error e => exact trivial
            | ok _ => exact (confined_audit _).bind fun _ _ _ => trivial
        dsimp only [Prog.bind]
        split
        · exact hsave none
        · exact trivial
        · exact hsave _

end

theorem serve_confined (cfg : AdminConfig) (p : Principal) (r : AdminRequest) :
    Confined p none (serve cfg p r) := by
  cases r with
  | createContact req => exact createContact_confined cfg req
  | updateContact id req => exact updateContact_confined id req
  | deleteContact id => exact confined_affecting (confined_delete rfl id) _ _ _ _
  | createGroup req => exact createGroup_confined req
  | deleteGroup id => exact confined_affecting (confined_delete rfl id) _ _ _ _
  | addGroupMember groupID contactID => exact addGroupMember_confined groupID contactID
  | removeGroupMember groupID contactID => exact removeGroupMember_confined groupID contactID
  | createTemplate tenantID req => exact createTemplate_confined cfg tenantID req
  | updateTemplate id req => exact updateTemplate_confined id req
  | deleteTemplate id => exact confined_affecting (confined_delete rfl id) _ _ _ _
  | createCampaign req => exact createCampaign_confined cfg req
  | updateCampaign id req => exact updateCampaign_confined id req
  | approveCampaign id => exact campaignStatusTransition_confined id _
  | sendCampaign id => exact campaignStatusTransition_confined id _
  | cancelCampaign id => exact campaignStatusTransition_confined id _
  | createProviderConfig req => exact createProviderConfig_confined cfg req
  | updateProviderConfig id req => exact updateProviderConfig_confined id req
  | deleteProviderConfig id => exact confined_affecting (confined_delete rfl id) _ _ _ _
  | createAPIKey now req => exact createAPIKey_confined cfg now req
  | revokeAPIKey id => exact revokeAPIKey_confined id
  | updateFeature id enabled => exact updateFeature_confined id enabled
  | updateChannel id req => exact updateChannel_confined id req
  | updateFeatureCatalog identifier enabled =>
      exact updateCatalog_confined (by decide) _ _ _ identifier enabled
  | updatePlatformChannel channel enabled =>
      exact updateCatalog_confined (by decide) _ _ _ channel enabled
  | updateProviderType provider enabled =>
      exact updateCatalog_confined (by decide) _ _ _ provider enabled
  | updateQueueControl id req => exact updateQueueControl_confined id req
  | markInAppRead id => exact markInAppRead_confined id
  | markAllInAppRead => exact markAllInAppRead_confined
  | updateTenantSettings id req => exact updateTenantSettings_confined id req

/-- Keys are distinct, no in-app notification refers to a contact, and a member of a group belongs
to the tenant of the group. -/
structure AdminDb.Sound (db : AdminDb) : Prop where
  ids : ∀ table, (db table).Pairwise fun a b => (a "id").same (b "id") = false
  unlinked : ∀ row ∈ db .inAppNotifications, row "contact_id" = .null
  members : ∀ m ∈ db .contactGroupMembers, ∃ u, m "group_id" = .text u ∧
    ∃ g ∈ db .contactGroups, g "id" = .text u ∧ g "tenant_id" = m "tenant_id"

namespace AdminDb

variable {db db' : AdminDb}

theorem same_comm (a b : Value) : a.same b = b.same a := by
  cases a <;> cases b <;> simp [Value.same, Bool.beq_comm]

theorem Sound.row_unique (h : db.Sound) {table : AdminTable} {r r' : Row Value} (hr : r ∈ db table)
    (hr' : r' ∈ db table) {u : String} (hid : r "id" = .text u) (hid' : r' "id" = .text u) :
    r = r' := by
  by_contra hne
  have hsymm : Std.Symm fun a b : Row Value => (a "id").same (b "id") = false :=
    ⟨fun a b hab => by rw [same_comm]; exact hab⟩
  have hdistinct := (h.ids table).forall hr hr' hne
  simp [hid, hid', Value.same] at hdistinct

def LinkedBy (column : String) (parent : AdminTable) (db : AdminDb) : Prop :=
  ∀ m ∈ db .contactGroupMembers, ∃ u, m column = .text u ∧
    ∃ g ∈ db parent, g "id" = .text u ∧ g "tenant_id" = m "tenant_id"

theorem LinkedBy.map {column : String} {parent : AdminTable}
    {f : AdminTable → Row Value → Option (Row Value)} (h : db.LinkedBy column parent)
    (hcolumn : column ∈ uuidColumns)
    (hf : ∀ u, ∀ row ∈ db u, ∃ row', f u row = some row' ∧ ∀ c ∈ uuidColumns, row' c = row c) :
    AdminDb.LinkedBy column parent fun u => (db u).filterMap (f u) := by
  intro m hm
  obtain ⟨old, hold, heq⟩ := List.mem_filterMap.mp hm
  obtain ⟨x, hx, hcolumns⟩ := hf _ old hold
  obtain rfl := Option.some.inj (hx.symm.trans heq)
  obtain ⟨u, hlink, g, hg, hid, htenant⟩ := h old hold
  obtain ⟨g', hg', hgcolumns⟩ := hf _ g hg
  refine ⟨u, ?_, g', List.mem_filterMap.mpr ⟨g, hg, hg'⟩, ?_, ?_⟩
  · rw [hcolumns column hcolumn, hlink]
  · rw [hgcolumns "id" (by decide), hid]
  · rw [hgcolumns "tenant_id" (by decide), hcolumns "tenant_id" (by decide), htenant]

private theorem Sound.map {f : AdminTable → Row Value → Option (Row Value)} (h : db.Sound)
    (hf : ∀ u, ∀ row ∈ db u, ∃ row', f u row = some row' ∧ ∀ c ∈ uuidColumns, row' c = row c) :
    AdminDb.Sound fun u => (db u).filterMap (f u) := by
  constructor
  · intro table
    rw [List.pairwise_filterMap]
    refine (h.ids table).imp_of_mem fun {r r'} hr hr' hdistinct b hb b' hb' => ?_
    obtain ⟨x, hx, hid⟩ := hf table r hr
    obtain ⟨x', hx', hid'⟩ := hf table r' hr'
    obtain rfl := Option.some.inj (hx.symm.trans hb)
    obtain rfl := Option.some.inj (hx'.symm.trans hb')
    rw [hid "id" (by decide), hid' "id" (by decide)]
    exact hdistinct
  · intro row hrow
    obtain ⟨old, hold, heq⟩ := List.mem_filterMap.mp hrow
    obtain ⟨x, hx, hcolumns⟩ := hf _ old hold
    obtain rfl := Option.some.inj (hx.symm.trans heq)
    rw [hcolumns "contact_id" (by decide)]
    exact h.unlinked old hold
  · exact LinkedBy.map h.members (by decide) hf

theorem assign_plain {clock : Value} {args : List Value} {sets : Terms Value}
    {bound : List (String × Value)} (hbound : adminEngine.bind clock args sets = some bound)
    (hplain : Plain sets) (row : Row Value) {c : String} (hc : c ∈ uuidColumns) :
    assign bound row c = row c := by
  apply assign_of_notMem
  rw [Engine.bound_columns hbound]
  intro hmem
  exact hplain c hmem hc

theorem Sound.update {clock : Value} {args : List Value} {table : AdminTable} {sets : Terms Value}
    {bsets bconds : List (String × Value)} (h : db.Sound)
    (hbound : adminEngine.bind clock args sets = some bsets) (hplain : Plain sets) :
    AdminDb.Sound fun u => (db u).filterMap (adminEngine.updated table bsets bconds u) := by
  apply h.map
  intro u row _
  refine ⟨_, rfl, fun c hc => ?_⟩
  split
  · exact assign_plain hbound hplain row hc
  · rfl

theorem remaining_columns {table u : AdminTable} {conds : List (String × Value)}
    {row row' : Row Value} (h : adminEngine.remaining db table conds u row = some row') :
    (u ≠ .inAppNotifications → row' = row) ∧ (∀ c, c ≠ "contact_id" → row' c = row c) ∧
      (row "contact_id" = .null → row' "contact_id" = .null) := by
  obtain ⟨-, lost, hlost, rfl⟩ := Engine.release_eq_some (Engine.remaining_eq_some h).2
  have hcontact : ∀ ref ∈ lost, ref.column = "contact_id" ∧ ref.child = .inAppNotifications ∧
      ref.child = u := by
    intro ref href
    obtain ⟨hmem, hchild, hnull⟩ := hlost ref href
    have hall : ∀ ref ∈ adminReferences, ref.cascades = false →
        ref.column = "contact_id" ∧ ref.child = .inAppNotifications := by decide
    exact ⟨(hall ref hmem hnull).1, (hall ref hmem hnull).2, hchild⟩
  refine ⟨fun hu => ?_, fun c hc => ?_, fun hnull => ?_⟩
  · have hnil : lost = [] := by
      rw [List.eq_nil_iff_forall_not_mem]
      intro ref href
      exact hu ((hcontact ref href).2.2.symm.trans (hcontact ref href).2.1)
    rw [hnil]
    rfl
  · apply assign_of_notMem
    intro hmem
    obtain ⟨entry, hentry, rfl⟩ := List.mem_map.mp hmem
    obtain ⟨ref, href, rfl⟩ := List.mem_map.mp hentry
    exact hc (hcontact ref href).1
  · by_cases hmem : "contact_id" ∈ (lost.map fun ref => (ref.column, adminEngine.null)).map Prod.fst
    · cases lost with
      | nil => simp at hmem
      | cons ref rest =>
          simp [assign, (hcontact ref (by simp)).1, adminEngine]
    · rw [assign_of_notMem hmem, hnull]

theorem LinkedBy.delete {column : String} {parent table : AdminTable}
    {conds : List (String × Value)} (h : db.LinkedBy column parent)
    (href : ⟨.contactGroupMembers, column, parent, true⟩ ∈ adminReferences)
    (hparent : ∀ ref ∈ adminReferences, ref.child ≠ parent) :
    AdminDb.LinkedBy column parent
      fun u => (db u).filterMap (adminEngine.remaining db table conds u) := by
  intro m hm
  obtain ⟨old, hold, heq⟩ := List.mem_filterMap.mp hm
  obtain rfl := (remaining_columns heq).1 (by decide)
  obtain ⟨u, hlink, g, hg, hid, htenant⟩ := h m hold
  have hkept : ¬(parent = table ∧ adminEngine.selects conds g = true) := by
    rintro ⟨rfl, hselects⟩
    -- the row is gone, so that the member is gone with it
    have hcascade := (Engine.release_eq_some (Engine.remaining_eq_some heq).2).1
      ⟨.contactGroupMembers, column, parent, true⟩ href rfl rfl
    have hrefers : adminEngine.refers ((db parent).filter (adminEngine.selects conds))
        ⟨.contactGroupMembers, column, parent, true⟩ m = true := by
      refine List.any_eq_true.mpr ⟨g, List.mem_filter.mpr ⟨hg, hselects⟩, ?_⟩
      simp [adminEngine, hlink, hid, Value.same]
    simpa using hcascade hrefers
  refine ⟨u, hlink, g, List.mem_filterMap.mpr ⟨g, hg, ?_⟩, hid, htenant⟩
  unfold Engine.remaining
  rw [if_neg hkept]
  have hhit : (adminEngine.references.filter fun ref => decide (ref.parent = table) &&
      decide (ref.child = parent) && adminEngine.refers
        ((db table).filter (adminEngine.selects conds)) ref g) = [] := by
    rw [List.filter_eq_nil_iff]
    intro ref href
    simp [hparent ref href]
  unfold Engine.release
  rw [hhit]
  rfl

theorem Sound.delete {table : AdminTable} {conds : List (String × Value)} (h : db.Sound) :
    AdminDb.Sound fun u => (db u).filterMap (adminEngine.remaining db table conds u) := by
  constructor
  · intro u
    rw [List.pairwise_filterMap]
    refine (h.ids u).imp fun {r r'} hdistinct b hb b' hb' => ?_
    rw [(remaining_columns hb).2.1 "id" (by decide), (remaining_columns hb').2.1 "id" (by decide)]
    exact hdistinct
  · intro row hrow
    obtain ⟨old, hold, heq⟩ := List.mem_filterMap.mp hrow
    exact (remaining_columns heq).2.2 (h.unlinked old hold)
  · exact LinkedBy.delete h.members (by simp [adminReferences]) (by decide)

theorem LinkedBy.insert {column : String} {parent table : AdminTable} {row : Row Value}
    (h : db.LinkedBy column parent) (hinsert : adminEngine.insert db table row = some db')
    (hmember : table ≠ .contactGroupMembers) : db'.LinkedBy column parent := by
  obtain ⟨-, rfl⟩ := adminEngine.insert_cases hinsert
  intro m hm
  dsimp only at hm
  rw [if_neg hmember.symm] at hm
  obtain ⟨u, hlink, g, hg, hid, htenant⟩ := h m hm
  refine ⟨u, hlink, g, ?_, hid, htenant⟩
  dsimp only
  split
  · exact List.mem_append_left _ hg
  · exact hg

theorem Sound.insert {table : AdminTable} {row : Row Value} (h : db.Sound)
    (hinsert : adminEngine.insert db table row = some db')
    (hmember : table ≠ .contactGroupMembers)
    (hcontact : table = .inAppNotifications → row "contact_id" = .null) : db'.Sound := by
  obtain ⟨hnew, rfl⟩ := adminEngine.insert_cases hinsert
  constructor
  · intro u
    split
    · next hu =>
        subst u
        rw [List.pairwise_append]
        refine ⟨h.ids table, List.pairwise_singleton _ _, fun r hr r' hr' => ?_⟩
        rw [List.mem_singleton.mp hr']
        exact hnew r hr
    · exact h.ids u
  · intro r hr
    split at hr
    · next hu =>
        rcases List.mem_append.mp hr with hr | hr
        · exact h.unlinked r hr
        · rw [List.mem_singleton.mp hr]
          exact hcontact hu.symm
    · exact h.unlinked r hr
  · exact LinkedBy.insert h.members hinsert hmember

private theorem addMember_cases (db : AdminDb) (row : Row Value) :
    db.addMember row = db ∨
      db.addMember row = fun u => if u = .contactGroupMembers then db u ++ [row] else db u := by
  unfold addMember
  split
  · exact .inl rfl
  · exact .inr rfl

theorem addMembers_cases (rows : List (Row Value)) (db : AdminDb) :
    (∀ u, u ≠ .contactGroupMembers → rows.foldl addMember db u = db u) ∧
    ∃ new, rows.foldl addMember db .contactGroupMembers = db .contactGroupMembers ++ new ∧
      ∀ m ∈ new, m ∈ rows := by
  induction rows generalizing db with
  | nil => exact ⟨fun _ _ => rfl, [], by simp⟩
  | cons row rows ih =>
      obtain ⟨hother, new, hnew, hmem⟩ := ih (db.addMember row)
      rw [List.foldl_cons]
      rcases addMember_cases db row with hsame | hadded
      · rw [hsame] at hother hnew ⊢
        exact ⟨hother, new, hnew, fun m hm => List.mem_cons_of_mem _ (hmem m hm)⟩
      · rw [hadded] at hother hnew ⊢
        refine ⟨fun u hu => (hother u hu).trans (if_neg hu), row :: new, ?_, ?_⟩
        · rw [hnew]
          simp
        · intro m hm
          rcases List.mem_cons.mp hm with rfl | hm
          · exact List.mem_cons_self
          · exact List.mem_cons_of_mem _ (hmem m hm)

theorem insertMember_cases {now : Int} {m : MemberInsert} {args : List Value}
    (h : db.insertMember now m args = some db') :
    ∃ tenant group contact groupConds contactConds, ∃ rows : List (Row Value),
      memberTenant? now args m.tenant = some tenant ∧
      value? now args "group_id" m.group = some group ∧
      value? now args "contact_id" m.contact = some contact ∧
      adminEngine.bind (.time now) args m.groupConds = some groupConds ∧
      adminEngine.bind (.time now) args m.contactConds = some contactConds ∧
      (∀ row ∈ rows, ∃ g ∈ db .contactGroups, ∃ c ∈ db .contacts,
        adminEngine.selects groupConds g = true ∧ adminEngine.selects contactConds c = true ∧
          row = newMember now tenant group contact g) ∧
      db' = rows.foldl addMember db := by
  simp only [insertMember, Option.bind_eq_bind, Option.bind_eq_some_iff] at h
  obtain ⟨tenant, htenant, group, hgroup, contact, hcontact, groupConds, hgroupConds, contactConds,
    hcontactConds, heq⟩ := h
  refine ⟨tenant, group, contact, groupConds, contactConds, _, htenant, hgroup, hcontact,
    hgroupConds, hcontactConds, ?_, (Option.some.inj heq).symm⟩
  intro row hrow
  obtain ⟨g, hg, hrow⟩ := List.mem_flatMap.mp hrow
  obtain ⟨hmem, hselects⟩ := List.mem_filter.mp hg
  obtain ⟨c, hc, rfl⟩ := List.mem_map.mp hrow
  obtain ⟨hcmem, hcselects⟩ := List.mem_filter.mp hc
  exact ⟨g, hmem, c, hcmem, hselects, hcselects, rfl⟩

theorem read_text {column : String} (hcolumn : column ∈ uuidColumns) {s : String}
    {v : Value} (h : readColumn column (.text s) = some v) :
    ∃ u, Uuid.read s = some u ∧ v = .text u := by
  simp only [readColumn, if_pos hcolumn] at h
  obtain ⟨u, hu, rfl⟩ := Option.map_eq_some_iff.mp h
  exact ⟨u, hu, rfl⟩

theorem selected_text {clock : Value} {args : List Value} {conds : Terms Value}
    {bconds : List (String × Value)} (hbound : adminEngine.bind clock args conds = some bconds)
    {row : Row Value} (hselects : adminEngine.selects bconds row = true) {column : String}
    (hcolumn : column ∈ uuidColumns) {n : Nat} (hcond : (column, .param (n + 1)) ∈ conds)
    {s : String} (harg : args[n]? = some (.text s)) :
    ∃ u, Uuid.read s = some u ∧ row column = .text u := by
  obtain ⟨v, hv, heval⟩ := Engine.exists_bound hbound hcond
  have hread : readColumn column (.text s) = some v := by
    simpa [Term.eval, harg, adminEngine] using heval
  obtain ⟨u, hu, rfl⟩ := read_text hcolumn hread
  exact ⟨u, hu, Value.eq_of_same (Engine.same_of_selects hselects hv)⟩

theorem Sound.insertMember {now : Int} {p : Principal} {groupID contactID : String}
    (h : db.Sound) (hinsert : db.insertMember now (memberInsert p groupID contactID).1
      (memberInsert p groupID contactID).2 = some db') : db'.Sound := by
  obtain ⟨tenant, group, contact, groupConds, _, rows, htenant, hgroup, -, hbound, -, hrows, rfl⟩ :=
    insertMember_cases hinsert
  obtain ⟨hother, new, hnew, hmem⟩ := addMembers_cases rows db
  -- the group of a new member is the one the statement names, in the member's tenant
  have hmembers : ∀ m ∈ rows, ∃ u, m "group_id" = .text u ∧
      ∃ g ∈ db .contactGroups, g "id" = .text u ∧ g "tenant_id" = m "tenant_id" := by
    intro m hm
    obtain ⟨g, hg, -, -, hselects, -, rfl⟩ := hrows m hm
    unfold memberInsert at htenant hgroup hbound
    split at hbound
    · next hp =>
        rw [if_pos hp] at htenant hgroup
        obtain rfl : none = tenant := Option.some.inj htenant
        have hgroup' : readColumn "group_id" (.text groupID) = some group := hgroup
        obtain ⟨u, hu, rfl⟩ := read_text (by decide) hgroup'
        obtain ⟨u', hu', hid⟩ := selected_text hbound hselects (by decide)
          (List.mem_cons_self) (s := groupID) rfl
        obtain rfl := Option.some.inj (hu.symm.trans hu')
        exact ⟨u, rfl, g, hg, hid, rfl⟩
    · next hp =>
        rw [if_neg hp] at htenant hgroup
        obtain ⟨v, hv, rfl⟩ := Option.map_eq_some_iff.mp htenant
        have hgroup' : readColumn "group_id" (.text groupID) = some group := hgroup
        have htenant' : readColumn "tenant_id" (.text p.tenantID) = some v := hv
        obtain ⟨u, hu, rfl⟩ := read_text (by decide) hgroup'
        obtain ⟨t, ht, rfl⟩ := read_text (by decide) htenant'
        obtain ⟨u', hu', hid⟩ := selected_text hbound hselects (by decide)
          (List.mem_cons_self) (s := groupID) rfl
        obtain rfl := Option.some.inj (hu.symm.trans hu')
        obtain ⟨t', ht', howner⟩ := selected_text hbound hselects (by decide)
          (List.mem_cons_of_mem _ List.mem_cons_self) (s := p.tenantID) rfl
        obtain rfl := Option.some.inj (ht.symm.trans ht')
        exact ⟨u, rfl, g, hg, hid, howner⟩
  have hkey : ∀ m ∈ rows, m "id" = .null := by
    intro m hm
    obtain ⟨g, -, c, -, -, -, rfl⟩ := hrows m hm
    rfl
  constructor
  · intro table
    by_cases htable : table = .contactGroupMembers
    · subst table
      rw [hnew, List.pairwise_append]
      have hnull : ∀ (x : Value) (m : Row Value), m ∈ new → x.same (m "id") = false := by
        intro x m hm
        rw [hkey m (hmem m hm)]
        cases x <;> rfl
      refine ⟨h.ids _, ?_, fun r _ m hm => hnull _ m hm⟩
      exact List.pairwise_of_forall_mem_list fun r _ m hm => hnull _ m hm
    · rw [hother table htable]
      exact h.ids table
  · intro row hrow
    rw [hother _ (by decide)] at hrow
    exact h.unlinked row hrow
  · intro m hm
    rw [hother _ (by decide)]
    rw [hnew] at hm
    rcases List.mem_append.mp hm with hm | hm
    · exact h.members m hm
    · exact hmembers m (hmem m hm)

def ControlsFrom (db db' : AdminDb) : Prop :=
  ∀ row' ∈ db' .tenantQueueControls, ∃ row ∈ db .tenantQueueControls,
    row "id" = row' "id" ∧ row "tenant_id" = row' "tenant_id"

theorem ControlsFrom.of_eq (h : db' .tenantQueueControls = db .tenantQueueControls) :
    ControlsFrom db db' := by
  intro row hrow
  rw [h] at hrow
  exact ⟨row, hrow, rfl, rfl⟩

end AdminDb

def tenantTables : List AdminTable :=
  [.contacts, .contactGroups, .notificationTemplates, .campaigns, .tenantProviderConfigs,
   .tenantAPIKeys, .tenantFeatures, .tenantChannels, .tenantQueueControls, .inAppNotifications,
   .tenants]

def belongsTo (t : String) (table : AdminTable) (row : Row Value) : Bool :=
  (row table.ownerColumn).same (.text t)

def ownOrShared (t : String) (table : AdminTable) (row : Row Value) : Bool :=
  decide (table ∉ tenantTables) || belongsTo t table row

section

variable {p : Principal} {g : Option String} {db db' : AdminDb} {o : AdminOutcome}

def Knows (p : Principal) (g : Option String) (db : AdminDb) : Prop :=
  ∀ id, g = some id → ∀ u, Uuid.read id = some u → ∀ row ∈ db .tenantQueueControls,
    row "id" = .text u → row "tenant_id" = .text p.tenantID

private theorem Knows.mono (h : Knows p g db) (hfrom : AdminDb.ControlsFrom db db') :
    Knows p g db' := by
  intro id hg u hu row' hrow' hid
  obtain ⟨row, hrow, hkey, htenant⟩ := hfrom row' hrow'
  rw [← htenant]
  exact h id hg u hu row hrow (hkey.trans hid)

private theorem belongsTo_of_text {t : String} {table : AdminTable} {row : Row Value}
    (h : row table.ownerColumn = .text t) : ownOrShared t table row = true := by
  simp [ownOrShared, belongsTo, h, Value.same]

private theorem ownOrShared_assign {t : String} {table : AdminTable} {row : Row Value}
    {sets : List (String × Value)} (h : ownOrShared t table row = true)
    (howner : assign sets row table.ownerColumn = row table.ownerColumn) :
    ownOrShared t table (assign sets row) = true := by
  simpa [ownOrShared, belongsTo, howner] using h

private theorem ownerColumn_mem (table : AdminTable) : table.ownerColumn ∈ uuidColumns := by
  cases table <;> decide

private theorem Limited.selected {table : AdminTable} {conds : Terms Value} {args : List Value}
    {clock : Value} {bconds : List (String × Value)} (h : Limited p table conds args)
    (hp : p.isPlatform = false) (ht : Uuid.read p.tenantID = some p.tenantID)
    (hbound : adminEngine.bind clock args conds = some bconds) {row : Row Value}
    (hselects : adminEngine.selects bconds row = true) :
    ownOrShared p.tenantID table row = true := by
  obtain ⟨n, hcond, harg⟩ := h hp
  obtain ⟨u, hu, hrow⟩ := AdminDb.selected_text hbound hselects (ownerColumn_mem table) hcond harg
  obtain rfl := Option.some.inj (ht.symm.trans hu)
  exact belongsTo_of_text hrow

private theorem kept_of_update {t : String} {table : AdminTable} {sets : Terms Value}
    {args : List Value} {clock : Value} {bsets bconds : List (String × Value)}
    (hplain : Plain sets) (hbound : adminEngine.bind clock args sets = some bsets)
    (hselected : ∀ row ∈ db table, adminEngine.selects bconds row = true →
      ownOrShared t table row = true) :
    Kept (ownOrShared t) db fun u => (db u).filterMap (adminEngine.updated table bsets bconds u) :=
  kept_update hselected fun row hrow => ownOrShared_assign hrow
    (AdminDb.assign_plain hbound hplain row (ownerColumn_mem table))

private theorem kept_of_delete {t : String} {table : AdminTable}
    {bconds : List (String × Value)} (hsound : db.Sound)
    (hselected : ∀ row ∈ db table, adminEngine.selects bconds row = true →
      ownOrShared t table row = true) :
    Kept (ownOrShared t) db fun u =>
      (db u).filterMap (adminEngine.remaining db table bconds u) := by
  refine kept_delete hselected ?_ ?_
  · intro ref href hparent row hrow hrefers
    by_cases hchild : ref.child = .inAppNotifications
    · -- an in-app notification refers to no contact
      have hnull : row ref.column = .null := by
        have hcolumn : ∀ ref ∈ adminReferences, ref.child = .inAppNotifications →
            ref.column = "contact_id" := by decide
        rw [hcolumn ref href hchild]
        rw [hchild] at hrow
        exact hsound.unlinked row hrow
      obtain ⟨gone, -, hsame⟩ := List.any_eq_true.mp hrefers
      rw [hnull] at hsame
      simp [adminEngine, Value.same] at hsame
    · have hmember : ∀ ref ∈ adminReferences, ref.child ≠ .inAppNotifications →
          ref.child ∉ tenantTables := by decide
      simp [ownOrShared, hmember ref href hchild]
  · intro u row sets hrow hsets
    apply ownOrShared_assign hrow
    apply assign_of_notMem
    intro hmem
    obtain ⟨entry, hentry, hcolumn⟩ := List.mem_map.mp hmem
    obtain ⟨ref, href, rfl, rfl⟩ := hsets entry hentry
    have howner : ∀ ref ∈ adminReferences, ref.column ≠ ref.child.ownerColumn := by decide
    exact howner ref href hcolumn

private theorem kept_of_insert {table : AdminTable} {row : Row Value} {t : String}
    (htable : table ∈ insertedTables) (h : adminEngine.insert db table row = some db')
    (htenant : row "tenant_id" = .text t) : Kept (ownOrShared t) db db' := by
  refine kept_insert h (belongsTo_of_text ?_)
  have howner : ∀ table ∈ insertedTables, table.ownerColumn = "tenant_id" := by decide
  rw [howner table htable]
  exact htenant

/-- What a call can do to the database: it keeps it sound, makes no queue control, and keeps the
rows of other tenants when it is made for a principal of a tenant. -/
structure TenantSafe (p : Principal) (db db' : AdminDb) : Prop where
  sound : db'.Sound
  controls : AdminDb.ControlsFrom db db'
  kept : p.isPlatform = false → Uuid.read p.tenantID = some p.tenantID →
    Kept (ownOrShared p.tenantID) db db'

theorem TenantSafe.refl (h : db.Sound) : TenantSafe p db db :=
  ⟨h, .of_eq rfl, fun _ _ => Kept.refl _ _⟩

private theorem harmless_update {table : AdminTable} {sets : Terms Value} {args : List Value}
    {clock : Value} {bsets bconds : List (String × Value)} (hsound : db.Sound)
    (hplain : Plain sets) (hbound : adminEngine.bind clock args sets = some bsets)
    (hselected : p.isPlatform = false → Uuid.read p.tenantID = some p.tenantID →
      ∀ row ∈ db table, adminEngine.selects bconds row = true →
        ownOrShared p.tenantID table row = true) :
    TenantSafe p db fun u => (db u).filterMap (adminEngine.updated table bsets bconds u) where
  sound := hsound.update hbound hplain
  controls := by
    intro row' hrow'
    obtain ⟨row, hrow, heq⟩ := List.mem_filterMap.mp hrow'
    refine ⟨row, hrow, ?_⟩
    obtain rfl := Option.some.inj heq
    split
    · exact ⟨(AdminDb.assign_plain hbound hplain row (by decide)).symm,
        (AdminDb.assign_plain hbound hplain row (by decide)).symm⟩
    · exact ⟨rfl, rfl⟩
  kept := fun hp ht => kept_of_update hplain hbound (hselected hp ht)

private theorem harmless_delete {table : AdminTable} {bconds : List (String × Value)}
    (hsound : db.Sound)
    (hselected : p.isPlatform = false → Uuid.read p.tenantID = some p.tenantID →
      ∀ row ∈ db table, adminEngine.selects bconds row = true →
        ownOrShared p.tenantID table row = true) :
    TenantSafe p db fun u => (db u).filterMap (adminEngine.remaining db table bconds u) where
  sound := hsound.delete
  controls := by
    intro row' hrow'
    obtain ⟨row, hrow, heq⟩ := List.mem_filterMap.mp hrow'
    obtain rfl := (AdminDb.remaining_columns heq).1 (by decide)
    exact ⟨_, hrow, rfl, rfl⟩
  kept := fun hp ht => kept_of_delete hsound (hselected hp ht)

private theorem harmless_insert {table : AdminTable} {values : Terms Value} {v : Value}
    {args : List Value} {bound : List (String × Value)} {id : String} {now : Int}
    (hsound : db.Sound) (htable : table ∈ insertedTables)
    (htenant : p.isPlatform = false → v = .text p.tenantID ∨ v = .ofText p.tenantID)
    (hbound : adminEngine.bind (.time now) (v :: args) (("tenant_id", .param 1) :: values) =
      some bound)
    (h : adminEngine.insert db table (table.newRow id now bound) = some db') :
    TenantSafe p db db' := by
  have htables : ∀ table ∈ insertedTables, table ≠ .contactGroupMembers ∧
      table ≠ .inAppNotifications ∧ table ≠ .tenantQueueControls := by decide
  obtain ⟨hmember, hinApp, hcontrols⟩ := htables table htable
  refine ⟨hsound.insert h hmember fun heq => absurd heq hinApp, ?_, fun hp ht => ?_⟩
  · obtain ⟨-, rfl⟩ := adminEngine.insert_cases h
    exact .of_eq (if_neg hcontrols.symm)
  · have hv : v = .text p.tenantID := by
      rcases htenant hp with hv | hv
      · exact hv
      · have hne : p.tenantID ≠ "" := by
          intro hempty
          rw [hempty] at ht
          exact absurd ht (by decide)
        rw [hv, Value.ofText, if_neg hne]
    apply kept_of_insert htable h
    cases Engine.bind_eq_some hbound with
    | @cons _ b _ rest hfirst _ =>
        obtain ⟨column, w⟩ := b
        obtain ⟨hcolumn, hread⟩ := hfirst
        have hw : readColumn "tenant_id" (.text p.tenantID) = some w := by
          simpa [Term.eval, hv, adminEngine] using hread
        obtain ⟨u, hu, rfl⟩ := AdminDb.read_text (by decide) hw
        obtain rfl := Option.some.inj (ht.symm.trans hu)
        obtain rfl : "tenant_id" = column := hcolumn
        simp [AdminTable.newRow]

private theorem harmless_insertMember {now : Int} {groupID contactID : String} (hsound : db.Sound)
    (h : db.insertMember now (memberInsert p groupID contactID).1
      (memberInsert p groupID contactID).2 = some db') : TenantSafe p db db' := by
  have hdb' := hsound.insertMember h
  obtain ⟨_, _, _, _, _, rows, -, -, -, -, -, -, rfl⟩ := AdminDb.insertMember_cases h
  obtain ⟨hother, -⟩ := AdminDb.addMembers_cases rows db
  refine ⟨hdb', .of_eq (hother _ (by decide)), fun _ _ u => ?_⟩
  by_cases hu : u = .contactGroupMembers
  · subst u
    have hshared : ∀ row, ownOrShared p.tenantID .contactGroupMembers row = true := by
      intro row
      simp [ownOrShared, tenantTables]
    simp [hshared]
  · rw [hother u hu]

private theorem harmless_audit {event : AuditEvent} {id : String} {now : Int} (hsound : db.Sound)
    (h : db.insertAudit id now event = some db') : TenantSafe p db db' := by
  obtain ⟨_, -, h⟩ := AdminDb.insertAudit_eq_some h
  refine ⟨hsound.insert h (by decide) (by simp), ?_, fun _ _ => ?_⟩
  · obtain ⟨-, rfl⟩ := adminEngine.insert_cases h
    exact .of_eq rfl
  · exact kept_insert h (by simp [ownOrShared, tenantTables])

theorem exec_of_perform {s : Sql.Stmt AdminTable Value} {args : List Value} {n : Nat}
    (h : db.perform o (.exec s args) = .ok (n, db')) :
    adminEngine.exec (.time o.now) args db s = some (n, db') := by
  simp only [AdminDb.perform] at h
  split at h
  · next r hexec =>
      obtain rfl := Except.ok.inj h
      exact hexec
  · simp at h

private theorem Permitted.harmless {c : AdminCall} {f : AdminReply c → Option String}
    (h : Permitted p g c f) (hsound : db.Sound) (hknows : p.isPlatform = false → Knows p g db)
    {r : AdminResult c} (hperform : db.perform o c = .ok (r, db')) : TenantSafe p db db' := by
  cases h with
  | @update table sets conds args hplain hlimited =>
      rcases adminEngine.exec_cases (exec_of_perform hperform) with
        ⟨_, _, _, bsets, bconds, heq, hsets, hconds, rfl⟩ | ⟨_, _, _, heq, -⟩
      · cases heq
        exact harmless_update hsound hplain hsets fun hp ht row _ hsel =>
          hlimited.selected hp ht hconds hsel
      · cases heq
  | @updateControl id sets conds args n hplain hcond harg hknown =>
      rcases adminEngine.exec_cases (exec_of_perform hperform) with
        ⟨_, _, _, bsets, bconds, heq, hsets, hconds, rfl⟩ | ⟨_, _, _, heq, -⟩
      · cases heq
        refine harmless_update hsound hplain hsets fun hp ht row hrow hsel => ?_
        obtain ⟨u, hu, hid⟩ := AdminDb.selected_text hconds hsel (by decide) hcond harg
        exact belongsTo_of_text (hknows hp id (hknown hp) u hu row hrow hid)
      · cases heq
  | @delete table conds args hlimited =>
      rcases adminEngine.exec_cases (exec_of_perform hperform) with
        ⟨_, _, _, _, _, heq, -⟩ | ⟨_, _, bconds, heq, hconds, rfl⟩
      · cases heq
      · cases heq
        exact harmless_delete hsound fun hp ht row _ hsel =>
          hlimited.selected hp ht hconds hsel
  | insert htable _ htenant =>
      simp only [AdminDb.perform] at hperform
      split at hperform
      · simp at hperform
      · next bound hbound =>
          split at hperform
          · next db'' hinsert =>
              obtain ⟨-, rfl⟩ := Prod.mk.inj (Except.ok.inj hperform)
              exact harmless_insert hsound htable htenant hbound hinsert
          · simp at hperform
  | insertMember groupID contactID =>
      simp only [AdminDb.perform] at hperform
      split at hperform
      · next db'' hinsert =>
          obtain ⟨-, rfl⟩ := Prod.mk.inj (Except.ok.inj hperform)
          exact harmless_insertMember hsound hinsert
      · simp at hperform
  | selectControl id =>
      simp only [AdminDb.perform] at hperform
      split at hperform
      · simp at hperform
      · split at hperform
        · obtain ⟨-, rfl⟩ := Prod.mk.inj (Except.ok.inj hperform)
          exact .refl hsound
        · simp at hperform
  | selectRow _ _ _ _ =>
      simp only [AdminDb.perform] at hperform
      split at hperform
      · simp at hperform
      · split at hperform
        · obtain ⟨-, rfl⟩ := Prod.mk.inj (Except.ok.inj hperform)
          exact .refl hsound
        · simp at hperform
  | encrypt _ =>
      obtain ⟨-, rfl⟩ := Prod.mk.inj (Except.ok.inj hperform)
      exact .refl hsound
  | randomToken _ =>
      obtain ⟨-, rfl⟩ := Prod.mk.inj (Except.ok.inj hperform)
      exact .refl hsound
  | audit event =>
      simp only [AdminDb.perform] at hperform
      split at hperform
      · next db'' hinsert =>
          obtain ⟨-, rfl⟩ := Prod.mk.inj (Except.ok.inj hperform)
          exact harmless_audit hsound hinsert
      · simp at hperform

private theorem knows_learned (hsound : db.Sound) {id : String} {r : List Value}
    (hperform : db.perform o (.selectRow .tenantQueueControls ["tenant_id"] [("id", .param 1)]
      [.text id]) = .ok (r, db')) : Knows p (learnControl p id (.ok r)) db' := by
  intro id' hid' u hu row hrow hkey
  have hlearned : r = [.text p.tenantID] ∧ id = id' := by
    unfold learnControl at hid'
    split at hid'
    · next t heq =>
        split at hid'
        · next ht =>
            obtain rfl := Except.ok.inj heq
            exact ⟨by rw [ht], Option.some.inj hid'⟩
        · simp at hid'
    · simp at hid'
  obtain ⟨rfl, rfl⟩ := hlearned
  simp only [AdminDb.perform] at hperform
  split at hperform
  · simp at hperform
  · next bconds hbound =>
      split at hperform
      · next found hfind =>
          obtain ⟨hcolumns, rfl⟩ := Prod.mk.inj (Except.ok.inj hperform)
          have hselects := List.find?_some hfind
          obtain ⟨u', hu', hfound⟩ := AdminDb.selected_text hbound hselects (by decide)
            List.mem_cons_self (s := id) rfl
          obtain rfl := Option.some.inj (hu.symm.trans hu')
          obtain rfl := hsound.row_unique hrow (List.mem_of_find?_eq_some hfind) hkey hfound
          simpa using hcolumns
      · simp at hperform

private theorem call_harmless (env : Nat → AdminOutcome) {c : AdminCall}
    {f : AdminReply c → Option String} (h : Permitted p g c f) {s : AdminState}
    (hsound : s.db.Sound) (hknows : p.isPlatform = false → Knows p g s.db) :
    TenantSafe p s.db (s.call env c).2.db ∧
      (p.isPlatform = false → Knows p (f (s.call env c).1) (s.call env c).2.db) := by
  -- a call that fails changes nothing and teaches nothing
  have hfailed : ∀ e, p.isPlatform = false → Knows p (f (.error e)) s.db := by
    intro e hp
    cases h with
    | selectControl id => exact fun id' hid' => by simp [learnControl] at hid'
    | _ => exact hknows hp
  unfold AdminState.call
  dsimp only
  split
  · exact ⟨.refl hsound, hfailed _⟩
  · split
    · next r db' hperform =>
        have hharmless := h.harmless hsound hknows hperform
        refine ⟨hharmless, fun hp => ?_⟩
        cases h with
        | selectControl id => exact knows_learned hsound hperform
        | _ => exact (hknows hp).mono hharmless.controls
    · exact ⟨.refl hsound, hfailed _⟩

end

theorem serve_harmless (cfg : AdminConfig) (env : Nat → AdminOutcome) (p : Principal)
    (r : AdminRequest) {s : AdminState} (hsound : s.db.Sound) :
    ((serve cfg p r).eval (AdminState.call env) s).2.db.Sound ∧
      (p.isPlatform = false → Uuid.read p.tenantID = some p.tenantID →
        Kept (ownOrShared p.tenantID) s.db ((serve cfg p r).eval (AdminState.call env) s).2.db) := by
  have heval := (serve_confined cfg p r).eval (h := AdminState.call env)
    (I := fun g s' => s'.db.Sound ∧ (p.isPlatform = false → Knows p g s'.db) ∧
      (p.isPlatform = false → Uuid.read p.tenantID = some p.tenantID →
        Kept (ownOrShared p.tenantID) s.db s'.db))
    (fun g c f s' hpermitted hI => by
      obtain ⟨hs', hknows, hkept⟩ := hI
      obtain ⟨hharmless, hknows'⟩ := call_harmless env hpermitted hs' hknows
      exact ⟨hharmless.sound, hknows', fun hp ht => (hkept hp ht).trans (hharmless.kept hp ht)⟩)
    (w := s) ⟨hsound, fun _ _ hnone => by simp at hnone, fun _ _ => Kept.refl _ _⟩
  obtain ⟨_, -, hs', -, hkept⟩ := heval
  exact ⟨hs', hkept⟩

def plainStmt : Sql.Stmt AdminTable Value → Prop
  | .update _ sets _ => Plain sets
  | .delete _ _ => True

/-- The database before the first request: keys are distinct, and there are neither members of
groups nor in-app notifications. -/
structure AdminDb.Initial (db : AdminDb) : Prop where
  ids : ∀ table, (db table).Pairwise fun a b => (a "id").same (b "id") = false
  members : db .contactGroupMembers = []
  inApp : db .inAppNotifications = []

/-- The databases that requests of any principals lead to. The code outside the handlers
(provisioning, the workers, the list of queue controls, the use of API keys, the broadcast) runs
statements that assign no identifying column and inserts rows, never a member of a group and
never an in-app notification with a contact. -/
inductive AdminDb.Reachable (cfg : AdminConfig) : AdminDb → Prop
  | initial {db : AdminDb} (h : db.Initial) : Reachable cfg db
  | request {db : AdminDb} (h : Reachable cfg db) (env : Nat → AdminOutcome) (p : Principal)
      (r : AdminRequest) (calls : Nat) :
      Reachable cfg ((serve cfg p r).eval (AdminState.call env) ⟨db, calls⟩).2.db
  | statement {db db' : AdminDb} (h : Reachable cfg db) {s : Sql.Stmt AdminTable Value}
      {clock : Value} {args : List Value} {n : Nat} (hplain : plainStmt s)
      (hexec : adminEngine.exec clock args db s = some (n, db')) : Reachable cfg db'
  | insertion {db db' : AdminDb} (h : Reachable cfg db) {table : AdminTable} {row : Row Value}
      (hinsert : adminEngine.insert db table row = some db')
      (hmember : table ≠ .contactGroupMembers)
      (hcontact : table = .inAppNotifications → row "contact_id" = .null) : Reachable cfg db'

theorem AdminDb.Reachable.sound {cfg : AdminConfig} {db : AdminDb} (h : db.Reachable cfg) :
    db.Sound := by
  induction h with
  | initial h => exact ⟨h.ids, by simp [h.inApp], by simp [h.members]⟩
  | request _ env p r calls ih => exact (serve_harmless cfg env p r ih).1
  | @statement db db' _ s clock args n hplain hexec ih =>
      rcases adminEngine.exec_cases hexec with
        ⟨_, _, _, _, _, rfl, hsets, -, rfl⟩ | ⟨_, _, _, rfl, -, rfl⟩
      · exact ih.update hsets hplain
      · exact ih.delete
  | insertion _ hinsert hmember hcontact ih => exact ih.insert hinsert hmember hcontact

private theorem serveAll_kept (cfg : AdminConfig) (env : Nat → AdminOutcome) {p : Principal}
    (hp : p.isPlatform = false) (ht : Uuid.read p.tenantID = some p.tenantID)
    (requests : List AdminRequest) {s : AdminState} (hsound : s.db.Sound) :
    Kept (ownOrShared p.tenantID) s.db (serveAll cfg env p requests s).db := by
  induction requests generalizing s with
  | nil => exact Kept.refl _ _
  | cons r rest ih =>
      obtain ⟨hsound', hkept⟩ := serve_harmless cfg env p r hsound
      exact (hkept hp ht).trans (ih hsound')

/-- Whatever requests a principal of a tenant makes of the mutating routes, the rows of other
tenants stay as they were. -/
theorem tenant_write_isolation (cfg : AdminConfig) (env : Nat → AdminOutcome) (p : Principal)
    (hp : p.isPlatform = false) (ht : Uuid.read p.tenantID = some p.tenantID) (db : AdminDb)
    (hdb : db.Reachable cfg) (requests : List AdminRequest) (calls : Nat) (table : AdminTable)
    (htable : table ∈ tenantTables) :
    ((serveAll cfg env p requests ⟨db, calls⟩).db table).filter
        (fun row => !belongsTo p.tenantID table row) =
      (db table).filter (fun row => !belongsTo p.tenantID table row) := by
  have hkept := serveAll_kept cfg env hp ht requests (s := ⟨db, calls⟩) hdb.sound table
  simpa [ownOrShared, htable] using hkept

def rowOf (columns : List (String × Value)) : Row Value :=
  fun c => (columns.lookup c).getD .null

def firstTenant : String := "11111111-1111-1111-1111-111111111111"

def secondTenant : String := "22222222-2222-2222-2222-222222222222"

def sampleContacts : AdminDb
  | .contacts =>
      [rowOf [("id", .text "aaaaaaaa-0000-0000-0000-000000000000"),
        ("tenant_id", .text firstTenant), ("name", .text "Ann"), ("status", .text "active")],
       rowOf [("id", .text "bbbbbbbb-0000-0000-0000-000000000000"),
        ("tenant_id", .text secondTenant), ("name", .text "Bob"), ("status", .text "active")]]
  | _ => []

def sampleAdminConfig : AdminConfig := ⟨id, fun _ => none, fun _ => ""⟩

theorem sampleContacts_reachable : sampleContacts.Reachable sampleAdminConfig := by
  apply AdminDb.Reachable.initial
  constructor
  · intro table
    cases table <;> first
      | exact List.Pairwise.nil
      | simp [sampleContacts, rowOf, Value.same]
  · rfl
  · rfl

/-- The first tenant deletes both contacts; that of the second tenant stays. -/
theorem tenant_write_isolation_contacts :
    ((serveAll sampleAdminConfig (fun _ => {}) ⟨7, firstTenant, false, []⟩
        [.deleteContact "aaaaaaaa-0000-0000-0000-000000000000",
         .deleteContact "bbbbbbbb-0000-0000-0000-000000000000"] ⟨sampleContacts, 0⟩).db
        .contacts).filter (fun row => !belongsTo firstTenant .contacts row) =
      (sampleContacts .contacts).filter (fun row => !belongsTo firstTenant .contacts row) :=
  tenant_write_isolation sampleAdminConfig (fun _ => {}) ⟨7, firstTenant, false, []⟩ rfl
    (by decide) sampleContacts sampleContacts_reachable _ 0 .contacts (by decide)

end NotificationPlatform
