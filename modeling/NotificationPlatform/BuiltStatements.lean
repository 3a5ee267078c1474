import NotificationPlatform.Lib.Placeholders
import NotificationPlatform.HandlerCalls
import NotificationPlatform.Provisioning
import NotificationPlatform.TenantReads

/-!
# The statements that handlers build

Eight handlers append an assignment for each field of the request, number its placeholder by hand
and close the statement with the condition on the row. Whatever fields are supplied, the numbers
agree with the order of the arguments. The list of logs builds a predicate for two queries in the
same way.
-/

namespace NotificationPlatform

open Lib Lib.Sql

/-- An update as a handler builds it. The rows of `tenant_users` that the last condition asks for
are those of `EXISTS (SELECT 1 FROM tenant_users WHERE ..)`. -/
structure BuiltUpdate where
  table : String
  sets : Terms Value
  conds : Terms Value
  members : Option (Terms Value)
  args : List Value

namespace BuiltUpdate

def ofBuilder (table : String) (b : Builder) : BuiltUpdate := ⟨table, b.sets, b.conds, none, b.args⟩

def placeholders (st : BuiltUpdate) : List Nat :=
  Sql.placeholders (st.sets ++ st.conds ++ st.members.getD [])

/-- What the statement makes of the rows of its table; `none` when an argument is missing or cannot
be read. -/
def run {T : Type} (E : Engine T Value) (st : BuiltUpdate) (clock : Value)
    (tenantUsers rows : List (Row Value)) : Option (List (Row Value)) :=
  match E.bind clock st.args st.sets, E.bind clock st.args st.conds,
      E.bind clock st.args (st.members.getD []) with
  | some sets, some conds, some members =>
      let found := st.members.isNone || tenantUsers.any (E.selects members)
      some (rows.map fun row => if E.selects conds row && found then assign sets row else row)
  | _, _, _ => none

end BuiltUpdate

inductive UpdateBody where
  | user (name email status : String)
  | channel (req : ChannelUpdate)
  | providerConfig (req : ProviderConfigUpdate)
  | queueControl (req : QueueControlUpdate)
  | contact (req : ContactUpdate)
  | campaign (req : CampaignUpdate)
  | role (name status scope : String)
  | tenant (name slug : String)

def contactBuilder (req : ContactUpdate) : Builder :=
  let b := Builder.start
  let b := b.setText "name" req.name
  let b := b.setText "email" req.email
  b.setText "phone" req.phone

def campaignBuilder (req : CampaignUpdate) : Builder :=
  let b := Builder.start
  let b := b.setText "name" req.name
  let b := b.setText "description" req.description
  b.setText "status" req.status

def channelBuilder (req : ChannelUpdate) : Builder :=
  let b := Builder.start
  let b := b.setSome "enabled" .bool req.enabled
  let b := b.setText "direction" req.direction
  let b := b.setSome "rate_limit_per_second" .int req.rateLimitPerSecond
  let b := b.setSome "daily_quota" .int req.dailyQuota
  b.setSome "priority" .int req.priority

def providerConfigBuilder (req : ProviderConfigUpdate) (encrypted : Json) : Builder :=
  let b := Builder.start
  let b := b.setText "provider" req.provider
  let b := b.setSome "is_default" .bool req.isDefault
  let b := b.setText "status" req.status
  if req.configJSON ≠ "" then b.set "config_json" (.json encrypted) else b

def queueControlStart (p : Principal) : Builder :=
  ⟨[("updated_at", .now), ("updated_by", .param 1)], [], [.ofText p.userText], 2⟩

def userBuilder (name email status : String) : Builder :=
  let b := Builder.start
  let b := b.setText "name" name
  let b := b.setText "email" email
  b.setText "status" status

/-- `UpdateUser`: a principal of a tenant asks for a membership of the user, by two more
placeholders. -/
def userStatement (p : Principal) (id : String) (b : Builder) : BuiltUpdate :=
  let b := b.cond "id" (.text id)
  if p.isPlatform then BuiltUpdate.ofBuilder "users" b
  else
    { table := "users"
      sets := b.sets
      conds := b.conds
      members := some [("user_id", .param b.argN), ("tenant_id", .param (b.argN + 1))]
      args := b.args ++ [.text id, .text p.tenantID] }

/-- `UpdateRole`: only a platform administrator sets the scope. -/
def roleBuilder (p : Principal) (name status scope : String) : Builder :=
  let b := Builder.start
  let b := b.setText "name" name
  let b := b.setText "status" status
  if scope ≠ "" ∧ p.isPlatform = true then b.set "scope" (.text scope) else b

/-- `UpdateRole` leaves `argN` as it is after the condition on the identifier. -/
def roleStatement (p : Principal) (id : String) (b : Builder) : BuiltUpdate :=
  let conds := b.conds ++ [("id", .param b.argN)]
  let args := b.args ++ [.text id]
  if p.isPlatform then ⟨"roles", b.sets, conds, none, args⟩
  else ⟨"roles", b.sets, conds ++ [("tenant_id", .param (b.argN + 1))], none,
    args ++ [.text p.tenantID]⟩

/-- The statement that a handler executes first, if it gets so far; `encrypted` is what the
encryption makes of a configuration. -/
def UpdateBody.statement (encrypted : String → Except Err Json) (p : Principal) (id : String) :
    UpdateBody → Option BuiltUpdate
  | .user name email status => some (userStatement p id (userBuilder name email status))
  | .channel req => some (.ofBuilder "tenant_channels" ((channelBuilder req).limited p id))
  | .providerConfig req =>
      if req.configJSON ≠ "" then
        match encrypted req.configJSON with
        | .error _ => none
        | .ok config => some (.ofBuilder "tenant_provider_configs"
            ((providerConfigBuilder req config).limited p id))
      else some (.ofBuilder "tenant_provider_configs"
        ((providerConfigBuilder req .null).limited p id))
  | .queueControl req =>
      match queueControlSets req (queueControlStart p) with
      | .error _ => none
      | .ok b => some (.ofBuilder "tenant_queue_controls" (b.cond "id" (.text id)))
  | .contact req => some (.ofBuilder "contacts" ((contactBuilder req).limited p id))
  | .campaign req => some (.ofBuilder "campaigns" ((campaignBuilder req).limited p id))
  | .role name status scope => some (roleStatement p id (roleBuilder p name status scope))
  | .tenant name slug =>
      if p.isPlatform = false ∨ (name = "" ∧ slug = "") then none
      else some (.ofBuilder "tenants" (tenantUpdate id name slug))

def textField (column text : String) : List (String × Value) :=
  if text = "" then [] else [(column, .text text)]

def optionField {α : Type} (column : String) (toValue : α → Value) : Option α →
    List (String × Value)
  | none => []
  | some v => [(column, toValue v)]

def UpdateBody.supplied (encrypted : String → Except Err Json) :
    UpdateBody → List (String × Value)
  | .user name email status =>
      textField "name" name ++ textField "email" email ++ textField "status" status
  | .channel req =>
      optionField "enabled" .bool req.enabled ++ textField "direction" req.direction ++
        optionField "rate_limit_per_second" .int req.rateLimitPerSecond ++
        optionField "daily_quota" .int req.dailyQuota ++ optionField "priority" .int req.priority
  | .providerConfig req =>
      textField "provider" req.provider ++ optionField "is_default" .bool req.isDefault ++
        textField "status" req.status ++
        (if req.configJSON = "" then []
          else optionField "config_json" .json (encrypted req.configJSON).toOption)
  | .queueControl req =>
      optionField "status" .text req.status ++ optionField "max_attempts" .int req.maxAttempts ++
        optionField "retry_delay_seconds" .int req.retryDelaySeconds ++
        optionField "notes" .text req.notes
  | .contact req =>
      textField "name" req.name ++ textField "email" req.email ++ textField "phone" req.phone
  | .campaign req =>
      textField "name" req.name ++ textField "description" req.description ++
        textField "status" req.status
  | .role name status scope =>
      textField "name" name ++ textField "status" status ++ textField "scope" scope
  | .tenant name slug => textField "name" name ++ textField "slug" slug

/-- Only a platform administrator sets the scope of a role; everyone sets every other field. -/
def UpdateBody.permits (p : Principal) : UpdateBody → String → Bool
  | .role _ _ _, column => column != "scope" || p.isPlatform
  | _, _ => true

def UpdateBody.written (encrypted : String → Except Err Json) (p : Principal) (r : UpdateBody) :
    List (String × Value) :=
  (r.supplied encrypted).filter fun c => r.permits p c.1

/-- The builder has the assignments it started with and, numbered behind its first arguments,
those of the columns. -/
structure Builder.Writes (b : Builder) (start : Terms Value) (before : List Value)
    (cols : List (String × Value)) : Prop where
  sets : b.sets = start ++ numbered before.length cols
  conds : b.conds = []
  args : b.args = before ++ cols.map Prod.snd
  next : b.argN = b.args.length + 1

namespace Builder.Writes

variable {b : Builder} {start : Terms Value} {before : List Value} {cols : List (String × Value)}

theorem set (h : b.Writes start before cols) (column : String) (v : Value) :
    (b.set column v).Writes start before (cols ++ [(column, v)]) := by
  have hn : b.argN = before.length + cols.length + 1 := by
    rw [h.next, h.args, List.length_append, List.length_map]
  constructor
  · show b.sets ++ [(column, .param b.argN)] = _
    rw [h.sets, numbered_append, List.append_assoc, hn]
    rfl
  · exact h.conds
  · show b.args ++ [v] = _
    rw [h.args, List.map_append, List.append_assoc]
    rfl
  · show b.argN + 1 = (b.args ++ [v]).length + 1
    rw [h.next, List.length_append]
    rfl

theorem setText (h : b.Writes start before cols) (column text : String) :
    (b.setText column text).Writes start before (cols ++ textField column text) := by
  unfold Builder.setText textField
  by_cases htext : text = ""
  · rw [if_neg (not_not.mpr htext), if_pos htext, List.append_nil]
    exact h
  · rw [if_pos htext, if_neg htext]
    exact h.set column _

theorem setSome {α : Type} (h : b.Writes start before cols) (column : String)
    (toValue : α → Value) (field : Option α) :
    (b.setSome column toValue field).Writes start before
      (cols ++ optionField column toValue field) := by
  cases field with
  | none =>
      rw [optionField, List.append_nil]
      exact h
  | some v => exact h.set column (toValue v)

theorem setChecked {α : Type} (h : b.Writes start before cols) {column : String}
    {toValue : α → Value} {invalid : α → Bool} {message : String} {field : Option α}
    {b' : Builder} (hb' : b.setChecked column toValue invalid message field = .ok b') :
    b'.Writes start before (cols ++ optionField column toValue field) := by
  cases field with
  | none =>
      obtain rfl := Except.ok.inj hb'
      rw [optionField, List.append_nil]
      exact h
  | some v =>
      unfold Builder.setChecked at hb'
      dsimp only at hb'
      split at hb'
      · simp at hb'
      · obtain rfl := Except.ok.inj hb'
        exact h.set column (toValue v)

end Builder.Writes

theorem writes_start : Builder.start.Writes [("updated_at", .now)] [] [] :=
  ⟨rfl, rfl, rfl, rfl⟩

theorem writes_queueControlStart (p : Principal) :
    (queueControlStart p).Writes [("updated_at", .now), ("updated_by", .param 1)]
      [.ofText p.userText] [] :=
  ⟨rfl, rfl, rfl, rfl⟩

def stampColumns : List String := ["updated_at", "updated_by"]

/-- The placeholders are `$1` to `$n`, each column is bound to its own value, and the columns that
were not supplied keep theirs. -/
structure BuiltUpdate.WritesOnly (st : BuiltUpdate) (supplied conds : List (String × Value))
    (members : Option (List (String × Value))) : Prop where
  placeholders : st.placeholders = List.range' 1 st.args.length
  assigned : ∀ clock, ((bindings clock st.args st.sets).filter fun c => c.1 ∉ stampColumns) =
    supplied.map fun c => (c.1, some c.2)
  limited : ∀ clock, bindings clock st.args st.conds = conds.map fun c => (c.1, some c.2)
  memberships : ∀ clock, st.members.map (bindings clock st.args) =
    members.map fun cols => cols.map fun c => (c.1, some c.2)
  kept : ∀ (T : Type) (E : Engine T Value) clock tenantUsers rows rows',
    st.run E clock tenantUsers rows = some rows' →
    ∀ column, column ∉ stampColumns → column ∉ supplied.map Prod.fst →
      (rows'.map fun row => row column) = rows.map fun row => row column

/-- The statement closes a builder: it adds assignments without placeholders, and numbers its
conditions and then those on `tenant_users`. -/
structure BuiltUpdate.Closes (st : BuiltUpdate) (b : Builder) (stamps : Terms Value)
    (conds : List (String × Value)) (members : Option (List (String × Value))) : Prop where
  sets_eq : st.sets = b.sets ++ stamps
  conds_eq : st.conds = numbered b.args.length conds
  members_eq : st.members = members.map (numbered (b.args.length + conds.length))
  args_eq : st.args = b.args ++ conds.map Prod.snd ++ (members.getD []).map Prod.snd

namespace BuiltUpdate

theorem run_kept {T : Type} {E : Engine T Value} {st : BuiltUpdate} {clock : Value}
    {tenantUsers rows rows' : List (Row Value)}
    (h : st.run E clock tenantUsers rows = some rows') {column : String}
    (hcolumn : column ∉ st.sets.map Prod.fst) :
    (rows'.map fun row => row column) = rows.map fun row => row column := by
  unfold run at h
  split at h
  · next sets conds members hsets _ _ =>
      obtain rfl := Option.some.inj h
      rw [List.map_map]
      apply List.map_congr_left
      intro row _
      rw [← Engine.bound_columns hsets] at hcolumn
      simp only [Function.comp_apply]
      split
      · exact assign_of_notMem hcolumn
      · rfl
  · simp at h

variable {st : BuiltUpdate} {b : Builder} {start stamps : Terms Value} {before : List Value}
  {cols conds : List (String × Value)} {members : Option (List (String × Value))}

theorem Closes.placeholders_eq (h : st.Closes b stamps conds members)
    (hb : b.Writes start before cols)
    (hstart : Sql.placeholders start = List.range' 1 before.length)
    (hstamps : Sql.placeholders stamps = []) :
    st.placeholders = List.range' 1 st.args.length := by
  have hmembers : st.members.getD [] =
      numbered (b.args.length + conds.length) (members.getD []) := by
    rw [h.members_eq]
    cases members <;> rfl
  have hlength : b.args.length = before.length + cols.length := by
    rw [hb.args, List.length_append, List.length_map]
  have htotal : st.args.length =
      before.length + cols.length + conds.length + (members.getD []).length := by
    rw [h.args_eq, List.length_append, List.length_append, hlength, List.length_map,
      List.length_map]
  rw [BuiltUpdate.placeholders, h.sets_eq, h.conds_eq, hmembers, hb.sets, htotal, hlength]
  simp only [placeholders_append, hstart, hstamps, placeholders_numbered, List.append_nil]
  rw [Nat.add_comm before.length 1, List.range'_append_1, Nat.add_comm _ 1, List.range'_append_1,
    Nat.add_comm _ 1, List.range'_append_1]

theorem Closes.writesOnly (h : st.Closes b stamps conds members)
    (hb : b.Writes start before cols)
    (hstart : Sql.placeholders start = List.range' 1 before.length)
    (hstamps : Sql.placeholders stamps = [])
    (hcolumns : ∀ t ∈ start ++ stamps, t.1 ∈ stampColumns)
    (hsupplied : ∀ c ∈ cols, c.1 ∉ stampColumns) : st.WritesOnly cols conds members := by
  have hstamp : ∀ (clock : Value) (terms : Terms Value), (∀ t ∈ terms, t ∈ start ++ stamps) →
      (bindings clock st.args terms).filter (fun c => c.1 ∉ stampColumns) = [] := by
    intro clock terms hterms
    rw [List.filter_eq_nil_iff]
    intro c hc
    obtain ⟨t, ht, rfl⟩ := List.mem_map.mp hc
    simpa using hcolumns t (hterms t ht)
  constructor
  · exact h.placeholders_eq hb hstart hstamps
  · intro clock
    have hown : bindings clock st.args (numbered before.length cols) =
        cols.map fun c => (c.1, some c.2) := by
      rw [h.args_eq, hb.args, List.append_assoc (before ++ _)]
      exact bindings_numbered clock before _ cols
    rw [h.sets_eq, hb.sets, bindings_append, bindings_append, hown, List.filter_append,
      List.filter_append, hstamp clock start fun t ht => List.mem_append_left _ ht,
      hstamp clock stamps fun t ht => List.mem_append_right _ ht, List.nil_append, List.append_nil]
    apply List.filter_eq_self.mpr
    intro c hc
    obtain ⟨c', hc', rfl⟩ := List.mem_map.mp hc
    simpa using hsupplied c' hc'
  · intro clock
    rw [h.conds_eq, h.args_eq]
    exact bindings_numbered clock b.args _ conds
  · intro clock
    rw [h.members_eq, h.args_eq]
    cases members with
    | none => rfl
    | some cols =>
        have hcols := bindings_numbered clock (b.args ++ conds.map Prod.snd) [] cols
        rw [List.length_append, List.length_map, List.append_nil] at hcols
        exact congrArg some hcols
  · intro T E clock tenantUsers rows rows' hrun column hstamp hcolumn
    apply run_kept hrun
    rw [h.sets_eq, hb.sets, List.map_append, List.map_append, map_fst_numbered, List.mem_append,
      List.mem_append]
    have hnot : ∀ terms : Terms Value, (∀ t ∈ terms, t ∈ start ++ stamps) →
        column ∉ terms.map Prod.fst := by
      intro terms hterms hin
      obtain ⟨t, ht, rfl⟩ := List.mem_map.mp hin
      exact hstamp (hcolumns t (hterms t ht))
    rintro ((hin | hin) | hin)
    · exact hnot start (fun t ht => List.mem_append_left _ ht) hin
    · exact hcolumn hin
    · exact hnot stamps (fun t ht => List.mem_append_right _ ht) hin

end BuiltUpdate

section

variable {encrypted : String → Except Err Json} {p : Principal} {id : String} {r : UpdateBody}
  {st : BuiltUpdate}

/-- The condition on the row, and on its tenant where the statement has one. The tenant of a queue
control is checked by a query, and `UpdateTenant` is for platform administrators. -/
def UpdateBody.conditions (p : Principal) (id : String) : UpdateBody → List (String × Value)
  | .user _ _ _ | .queueControl _ | .tenant _ _ => [("id", .text id)]
  | .channel _ | .providerConfig _ | .contact _ | .campaign _ | .role _ _ _ =>
      ("id", .text id) :: if p.isPlatform then [] else [("tenant_id", .text p.tenantID)]

/-- The membership that `UpdateUser` asks of the user of a tenant. -/
def UpdateBody.memberships (p : Principal) (id : String) :
    UpdateBody → Option (List (String × Value))
  | .user _ _ _ =>
      if p.isPlatform then none else some [("user_id", .text id), ("tenant_id", .text p.tenantID)]
  | _ => none

private theorem textField_column {column text : String} {c : String × Value}
    (h : c ∈ textField column text) : c.1 = column := by
  unfold textField at h
  split at h
  · simp at h
  · rw [List.mem_singleton.mp h]

private theorem optionField_column {α : Type} {column : String} {toValue : α → Value}
    {field : Option α} {c : String × Value} (h : c ∈ optionField column toValue field) :
    c.1 = column := by
  cases field with
  | none => simp [optionField] at h
  | some v => rw [List.mem_singleton.mp h]

theorem UpdateBody.supplied_columns : ∀ c ∈ r.supplied encrypted, c.1 ∉ stampColumns := by
  intro c hc
  cases r with
  | user name email status =>
      simp only [supplied, List.mem_append] at hc
      rcases hc with (hc | hc) | hc <;> rw [textField_column hc] <;> decide
  | channel req =>
      simp only [supplied, List.mem_append] at hc
      rcases hc with (((hc | hc) | hc) | hc) | hc
      · rw [optionField_column hc]
        decide
      · rw [textField_column hc]
        decide
      all_goals
        rw [optionField_column hc]
        decide
  | providerConfig req =>
      simp only [supplied, List.mem_append] at hc
      rcases hc with ((hc | hc) | hc) | hc
      · rw [textField_column hc]
        decide
      · rw [optionField_column hc]
        decide
      · rw [textField_column hc]
        decide
      · split at hc
        · simp at hc
        · rw [optionField_column hc]
          decide
  | queueControl req =>
      simp only [supplied, List.mem_append] at hc
      rcases hc with ((hc | hc) | hc) | hc <;> rw [optionField_column hc] <;> decide
  | contact req =>
      simp only [supplied, List.mem_append] at hc
      rcases hc with (hc | hc) | hc <;> rw [textField_column hc] <;> decide
  | campaign req =>
      simp only [supplied, List.mem_append] at hc
      rcases hc with (hc | hc) | hc <;> rw [textField_column hc] <;> decide
  | role name status scope =>
      simp only [supplied, List.mem_append] at hc
      rcases hc with (hc | hc) | hc <;> rw [textField_column hc] <;> decide
  | tenant name slug =>
      simp only [supplied, List.mem_append] at hc
      rcases hc with hc | hc <;> rw [textField_column hc] <;> decide

theorem UpdateBody.written_columns : ∀ c ∈ r.written encrypted p, c.1 ∉ stampColumns :=
  fun c hc => supplied_columns c (List.mem_of_mem_filter hc)

theorem UpdateBody.written_eq (h : ∀ column, r.permits p column = true) :
    r.written encrypted p = r.supplied encrypted :=
  List.filter_eq_self.mpr fun c _ => h c.1

theorem UpdateBody.written_role (name status scope : String) :
    (UpdateBody.role name status scope).written encrypted p =
      textField "name" name ++ textField "status" status ++
        (if p.isPlatform then textField "scope" scope else []) := by
  have hkept : ∀ {column text : String}, column ≠ "scope" →
      ((textField column text).filter fun c =>
        (UpdateBody.role name status scope).permits p c.1) = textField column text := by
    intro column text hcolumn
    apply List.filter_eq_self.mpr
    intro c hc
    simp [permits, textField_column hc, hcolumn]
  have hscope : ((textField "scope" scope).filter fun c =>
      (UpdateBody.role name status scope).permits p c.1) =
        if p.isPlatform then textField "scope" scope else [] := by
    by_cases hplatform : p.isPlatform = true
    · rw [if_pos hplatform]
      exact List.filter_eq_self.mpr fun c _ => by simp [permits, hplatform]
    · rw [if_neg hplatform]
      apply List.filter_eq_nil_iff.mpr
      intro c hc
      simp [permits, textField_column hc, hplatform]
  rw [written, supplied, List.filter_append, List.filter_append, hkept (by decide),
    hkept (by decide), hscope]

private theorem conds_id {b : Builder} {start : Terms Value} {before : List Value}
    {cols : List (String × Value)} (hb : b.Writes start before cols) (v : Value) :
    b.conds ++ [("id", .param b.argN)] = numbered b.args.length [("id", v)] := by
  rw [hb.conds, hb.next]
  rfl

private theorem conds_tenant {b : Builder} {start : Terms Value} {before : List Value}
    {cols : List (String × Value)} (hb : b.Writes start before cols) (v t : Value) :
    b.conds ++ [("id", .param b.argN)] ++ [("tenant_id", .param (b.argN + 1))] =
      numbered b.args.length [("id", v), ("tenant_id", t)] := by
  rw [hb.conds, hb.next]
  rfl

theorem limited_closes {b : Builder} {table : String} {start : Terms Value} {before : List Value}
    {cols : List (String × Value)} (hb : b.Writes start before cols) :
    (BuiltUpdate.ofBuilder table (b.limited p id)).Closes b []
      (("id", .text id) :: if p.isPlatform then [] else [("tenant_id", .text p.tenantID)])
      none := by
  unfold Builder.limited
  cases p.isPlatform with
  | true =>
      constructor
      · exact (List.append_nil _).symm
      · exact conds_id hb _
      · rfl
      · exact (List.append_nil _).symm
  | false =>
      constructor
      · exact (List.append_nil _).symm
      · exact conds_tenant hb _ _
      · rfl
      · show b.args ++ [.text id] ++ [.text p.tenantID] = _
        simp

private theorem userStatement_closes {b : Builder} {start : Terms Value} {before : List Value}
    {cols : List (String × Value)} {name email status : String}
    (hb : b.Writes start before cols) :
    (userStatement p id b).Closes b [] ((UpdateBody.user name email status).conditions p id)
      ((UpdateBody.user name email status).memberships p id) := by
  unfold userStatement UpdateBody.memberships
  cases p.isPlatform with
  | true =>
      constructor
      · exact (List.append_nil _).symm
      · exact conds_id hb _
      · rfl
      · exact (List.append_nil _).symm
  | false =>
      constructor
      · exact (List.append_nil _).symm
      · exact conds_id hb _
      · show (some [("user_id", .param (b.argN + 1)), ("tenant_id", .param (b.argN + 1 + 1))] :
          Option (Terms Value)) = _
        rw [hb.next]
        rfl
      · rfl

private theorem roleStatement_closes {b : Builder} {start : Terms Value} {before : List Value}
    {cols : List (String × Value)} {name status scope : String}
    (hb : b.Writes start before cols) :
    (roleStatement p id b).Closes b [] ((UpdateBody.role name status scope).conditions p id)
      none := by
  unfold roleStatement UpdateBody.conditions
  cases p.isPlatform with
  | true =>
      constructor
      · exact (List.append_nil _).symm
      · exact conds_id hb _
      · rfl
      · exact (List.append_nil _).symm
  | false =>
      constructor
      · exact (List.append_nil _).symm
      · exact conds_tenant hb _ _
      · rfl
      · show b.args ++ [.text id] ++ [.text p.tenantID] = _
        simp

private theorem queueControl_writes {req : QueueControlUpdate} {b : Builder}
    (h : queueControlSets req (queueControlStart p) = .ok b) :
    b.Writes [("updated_at", .now), ("updated_by", .param 1)] [.ofText p.userText]
      ((UpdateBody.queueControl req).supplied encrypted) := by
  obtain ⟨b₁, h₁, h⟩ := except_bind_ok h
  obtain ⟨b₂, h₂, h⟩ := except_bind_ok h
  obtain ⟨b₃, h₃, h⟩ := except_bind_ok h
  obtain rfl := Except.ok.inj h
  exact ((((writes_queueControlStart p).setChecked h₁).setChecked h₂).setChecked h₃).setSome
    "notes" .text req.notes

private theorem providerConfig_writes {req : ProviderConfigUpdate} {config : Json}
    (h : req.configJSON ≠ "" → encrypted req.configJSON = .ok config) :
    (providerConfigBuilder req config).Writes [("updated_at", .now)] []
      ((UpdateBody.providerConfig req).supplied encrypted) := by
  have hfields := ((writes_start.setText "provider" req.provider).setSome "is_default" .bool
    req.isDefault).setText "status" req.status
  unfold providerConfigBuilder
  rw [UpdateBody.supplied]
  by_cases hconfig : req.configJSON = ""
  · rw [if_neg (not_not.mpr hconfig), if_pos hconfig, List.append_nil]
    exact hfields
  · rw [if_pos hconfig, if_neg hconfig, h hconfig]
    exact hfields.set "config_json" (.json config)

private theorem role_writes {name status scope : String} :
    (roleBuilder p name status scope).Writes [("updated_at", .now)] []
      ((UpdateBody.role name status scope).written encrypted p) := by
  have hfields := (writes_start.setText "name" name).setText "status" status
  unfold roleBuilder
  rw [UpdateBody.written_role]
  cases p.isPlatform with
  | false =>
      rw [if_neg (by simp), if_neg Bool.false_ne_true, List.append_nil]
      exact hfields
  | true =>
      rw [if_pos rfl]
      by_cases hscope : scope = ""
      · have hnone : textField "scope" scope = [] := if_pos hscope
        rw [if_neg (by simp [hscope]), hnone, List.append_nil]
        exact hfields
      · have hone : textField "scope" scope = [("scope", .text scope)] := if_neg hscope
        rw [if_pos ⟨hscope, rfl⟩, hone]
        exact hfields.set "scope" (.text scope)

private theorem statement_closes (h : r.statement encrypted p id = some st) :
    ∃ b start before stamps, b.Writes start before (r.written encrypted p) ∧
      st.Closes b stamps (r.conditions p id) (r.memberships p id) ∧
      Sql.placeholders start = List.range' 1 before.length ∧ Sql.placeholders stamps = [] ∧
      ∀ t ∈ start ++ stamps, t.1 ∈ stampColumns := by
  cases r with
  | user name email status =>
      rw [UpdateBody.written_eq fun _ => rfl]
      have hb := ((writes_start.setText "name" name).setText "email" email).setText "status" status
      obtain rfl := Option.some.inj h
      exact ⟨_, _, _, [], hb, userStatement_closes hb, rfl, rfl, by decide⟩
  | channel req =>
      rw [UpdateBody.written_eq fun _ => rfl]
      have hb := ((((writes_start.setSome "enabled" .bool req.enabled).setText "direction"
        req.direction).setSome "rate_limit_per_second" .int req.rateLimitPerSecond).setSome
        "daily_quota" .int req.dailyQuota).setSome "priority" .int req.priority
      obtain rfl := Option.some.inj h
      exact ⟨_, _, _, [], hb, limited_closes hb, rfl, rfl, by decide⟩
  | providerConfig req =>
      rw [UpdateBody.written_eq fun _ => rfl]
      rw [UpdateBody.statement] at h
      split at h
      · split at h
        · simp at h
        · next config hencrypted =>
            have hb := @providerConfig_writes encrypted req config fun _ => hencrypted
            obtain rfl := Option.some.inj h
            exact ⟨_, _, _, [], hb, limited_closes hb, rfl, rfl, by decide⟩
      · next hconfig =>
          have hb := @providerConfig_writes encrypted req .null fun hne => absurd hne hconfig
          obtain rfl := Option.some.inj h
          exact ⟨_, _, _, [], hb, limited_closes hb, rfl, rfl, by decide⟩
  | queueControl req =>
      rw [UpdateBody.written_eq fun _ => rfl]
      rw [UpdateBody.statement] at h
      split at h
      · simp at h
      · next b hsets =>
          have hb := @queueControl_writes encrypted p req b hsets
          obtain rfl := Option.some.inj h
          refine ⟨b, _, _, [], hb, ?_, rfl, rfl, by decide⟩
          constructor
          · exact (List.append_nil _).symm
          · exact conds_id hb _
          · rfl
          · exact (List.append_nil _).symm
  | contact req =>
      rw [UpdateBody.written_eq fun _ => rfl]
      have hb := ((writes_start.setText "name" req.name).setText "email" req.email).setText
        "phone" req.phone
      obtain rfl := Option.some.inj h
      exact ⟨_, _, _, [], hb, limited_closes hb, rfl, rfl, by decide⟩
  | campaign req =>
      rw [UpdateBody.written_eq fun _ => rfl]
      have hb := ((writes_start.setText "name" req.name).setText "description"
        req.description).setText "status" req.status
      obtain rfl := Option.some.inj h
      exact ⟨_, _, _, [], hb, limited_closes hb, rfl, rfl, by decide⟩
  | role name status scope =>
      have hb := @role_writes encrypted p name status scope
      obtain rfl := Option.some.inj h
      exact ⟨_, _, _, [], hb, roleStatement_closes hb, rfl, rfl, by decide⟩
  | tenant name slug =>
      rw [UpdateBody.written_eq fun _ => rfl]
      rw [UpdateBody.statement] at h
      split at h
      · simp at h
      · have hstart : Builder.Writes ⟨[], [], [], 1⟩ [] [] [] := ⟨rfl, rfl, rfl, rfl⟩
        have hb := (hstart.setText "name" name).setText "slug" slug
        obtain rfl := Option.some.inj h
        refine ⟨_, _, _, [("updated_at", .now)], hb, ?_, rfl, rfl, by decide⟩
        constructor
        · rfl
        · exact conds_id hb _
        · rfl
        · exact (List.append_nil _).symm

theorem statement_writesOnly (h : r.statement encrypted p id = some st) :
    st.WritesOnly (r.written encrypted p) (r.conditions p id) (r.memberships p id) := by
  obtain ⟨b, start, before, stamps, hb, hcloses, hstart, hstamps, hcolumns⟩ := statement_closes h
  exact hcloses.writesOnly hb hstart hstamps hcolumns UpdateBody.written_columns

end

structure LogClause where
  key : String
  param : Nat

/-- A query of the list of logs; `window` are the placeholders of `LIMIT` and `OFFSET`. -/
structure LogQuery where
  clauses : List LogClause
  window : Option (Nat × Nat)
  args : List Value

def logArgument (x : Texts) (key value : String) : Value :=
  .text (if key = "search" then "%" ++ x.lowerText value ++ "%" else value)

/-- A condition is appended: its placeholder is the number of arguments it then has. -/
def addClause (x : Texts) (q : LogQuery) (cond : String × String) : LogQuery :=
  let args := q.args ++ [logArgument x cond.1 cond.2]
  { q with clauses := q.clauses ++ [⟨cond.1, args.length⟩], args := args }

def countQuery (x : Texts) (p : Principal) (query : Values) : LogQuery :=
  (logConditions p query).foldl (addClause x) ⟨[], none, []⟩

/-- The query of the page: its own two arguments stand behind those of the predicate. -/
def logPageQuery (x : Texts) (p : Principal) (query : Values) : LogQuery :=
  let q := countQuery x p query
  let (_, perPage, offset) := pagination query
  { clauses := q.clauses
    window := some (q.args.length + 1, q.args.length + 2)
    args := q.args ++ [.int perPage, .int offset] }

namespace LogQuery

def arg? (q : LogQuery) (n : Nat) : Option Value := (Term.param n).eval .null q.args

/-- The predicate: each condition with what its placeholder is bound to. -/
def predicate (q : LogQuery) : List (String × Option Value) :=
  q.clauses.map fun c => (c.key, q.arg? c.param)

end LogQuery

def boundCondition (x : Texts) : String × Option Value → Option (Row Value → Bool)
  | ("search", some (.text pattern)) =>
      some fun row => ["public_id", "event_key", "idempotency_key"].any fun c =>
        like pattern.toList (x.lower (row c).textValue).toList
  | (key, some (.text value)) => logCondition x key value
  | _ => none

def LogQuery.rows (x : Texts) (s : Snapshot) (q : LogQuery) : Option (List (Row Value)) :=
  (q.predicate.mapM (boundCondition x)).map fun conds =>
    (s.notifications.flatMap fun n => joinTenants s (withLatestDelivery s n)).filter fun row =>
      conds.all fun cond => cond row

section

variable {x : Texts} {p : Principal} {query : Values}

def boundTo (x : Texts) (conds : List (String × String)) : List (String × Option Value) :=
  conds.map fun c => (c.1, some (logArgument x c.1 c.2))

private def WithinArgs (q : LogQuery) : Prop := ∀ c ∈ q.clauses, c.param ≤ q.args.length

private theorem eval_append {args : List Value} {n : Nat} (hn : n ≤ args.length)
    (more : List Value) :
    (Term.param n).eval .null (args ++ more) = (Term.param n).eval (.null : Value) args := by
  cases n with
  | zero => rfl
  | succ n => exact List.getElem?_append_left hn

private theorem predicate_append {q : LogQuery} (hq : WithinArgs q) (more : List Value)
    (window : Option (Nat × Nat)) :
    (LogQuery.mk q.clauses window (q.args ++ more)).predicate = q.predicate := by
  apply List.map_congr_left
  intro c hc
  exact congrArg (Prod.mk c.key) (eval_append (hq c hc) more)

private theorem addClause_spec (cond : String × String) {q : LogQuery} (hq : WithinArgs q) :
    WithinArgs (addClause x q cond) ∧ (addClause x q cond).predicate =
      q.predicate ++ [(cond.1, some (logArgument x cond.1 cond.2))] := by
  constructor
  · intro c hc
    show c.param ≤ (q.args ++ [logArgument x cond.1 cond.2]).length
    rw [List.length_append]
    rcases List.mem_append.mp hc with hc | hc
    · exact Nat.le_add_right_of_le (hq c hc)
    · rw [List.mem_singleton.mp hc]
      exact Nat.le_of_eq List.length_append
  · have hold := predicate_append hq [logArgument x cond.1 cond.2] q.window
    have hnew : (Term.param (q.args ++ [logArgument x cond.1 cond.2]).length).eval .null
        (q.args ++ [logArgument x cond.1 cond.2]) = some (logArgument x cond.1 cond.2) := by
      rw [List.length_append]
      exact List.getElem?_concat_length
    rw [← hold]
    show List.map _ (q.clauses ++ [_]) = _
    rw [List.map_append, List.map_singleton]
    exact congrArg (fun v => _ ++ [(cond.1, v)]) hnew

private theorem foldl_addClause (conds : List (String × String)) {q : LogQuery}
    (hq : WithinArgs q) :
    WithinArgs (conds.foldl (addClause x) q) ∧ (conds.foldl (addClause x) q).predicate =
      q.predicate ++ boundTo x conds := by
  induction conds generalizing q with
  | nil => exact ⟨hq, (List.append_nil _).symm⟩
  | cons cond conds ih =>
      obtain ⟨hwithin, hpredicate⟩ := addClause_spec (x := x) cond hq
      obtain ⟨hall, hrest⟩ := ih hwithin
      refine ⟨hall, ?_⟩
      rw [List.foldl_cons, hrest, hpredicate, List.append_assoc]
      rfl

private theorem countQuery_spec : WithinArgs (countQuery x p query) ∧
    (countQuery x p query).predicate = boundTo x (logConditions p query) := by
  have hempty : WithinArgs ⟨[], none, []⟩ := by
    intro c hc
    exact absurd hc List.not_mem_nil
  exact foldl_addClause (logConditions p query) hempty

theorem logQueries_predicate :
    (countQuery x p query).predicate = boundTo x (logConditions p query) ∧
      (logPageQuery x p query).predicate = (countQuery x p query).predicate :=
  ⟨countQuery_spec.2, predicate_append countQuery_spec.1 _ _⟩

theorem logPageQuery_window :
    (logPageQuery x p query).window.map
        (fun w => ((logPageQuery x p query).arg? w.1, (logPageQuery x p query).arg? w.2)) =
      some (some (.int (pagination query).2.1), some (.int (pagination query).2.2)) := by
  simp [logPageQuery, LogQuery.arg?, Term.eval]

private theorem boundCondition_eq (c : String × String) :
    boundCondition x (c.1, some (logArgument x c.1 c.2)) = logCondition x c.1 c.2 := by
  obtain ⟨key, value⟩ := c
  by_cases hkey : key = "search"
  · subst hkey
    rfl
  · have hargument : logArgument x key value = .text value := congrArg Value.text (if_neg hkey)
    rw [hargument]
    unfold boundCondition
    split
    · next heq => exact absurd (Prod.mk.inj heq).1 hkey
    · next heq =>
        obtain ⟨rfl, hvalue⟩ := Prod.mk.inj heq
        obtain rfl := Value.text.inj (Option.some.inj hvalue)
        rfl
    · next hno => exact absurd rfl (hno key value)

theorem rows_of_predicate (s : Snapshot) {q : LogQuery}
    (h : q.predicate = boundTo x (logConditions p query)) :
    q.rows x s = logRows x s (logConditions p query) := by
  rw [LogQuery.rows, logRows, h, boundTo, List.mapM_map]
  congr 2
  funext c
  exact boundCondition_eq c

end

end NotificationPlatform
