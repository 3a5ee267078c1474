import NotificationPlatform.AuditedRequests
import NotificationPlatform.BuiltStatements

/-!
# The handlers and their built statements

The statement of a request is what its handler executes. A handler that is a program of calls makes
one statement that changes rows, this one, and makes it just when its checks pass; a handler that
works on tables leaves the rows that the statement makes of those it found.
-/

namespace NotificationPlatform

open Lib Lib.Sql

/-- A body of `UpdateQueueControl` whose fields are in range. -/
structure QueueControlUpdate.InRange (req : QueueControlUpdate) : Prop where
  status : ∀ s, req.status = some s → s = "active" ∨ s = "paused" ∨ s = "stopped"
  maxAttempts : ∀ n, req.maxAttempts = some n → 1 ≤ n ∧ n ≤ 20
  retryDelaySeconds : ∀ n, req.retryDelaySeconds = some n → 0 ≤ n ∧ n ≤ 86400

def UpdateBody.Accepted (encrypted : String → Except Err Json) (p : Principal) : UpdateBody → Prop
  | .providerConfig req => req.configJSON ≠ "" → ∃ config, encrypted req.configJSON = .ok config
  | .queueControl req => req.InRange
  | .tenant name slug => p.isPlatform = true ∧ (name ≠ "" ∨ slug ≠ "")
  | .user _ _ _ | .channel _ | .contact _ | .campaign _ | .role _ _ _ => True

/-- The statements that a program executes when its calls are answered so, with their arguments. -/
def executed {α : Type} (reply : (c : AdminCall) → AdminReply c) (code : AdminCode α) :
    List (Sql.Stmt AdminTable Value × List Value) :=
  (code.eval (fun c done => (reply c, match c with
    | .exec s args => done ++ [(s, args)]
    | _ => done)) []).2

/-- `UpdateQueueControl` asks for the tenant of the row before anything else. -/
def UpdateBody.admitted (reply : (c : AdminCall) → AdminReply c) (p : Principal) (id : String) :
    UpdateBody → Bool
  | .queueControl _ =>
      match reply (.selectRow .tenantQueueControls ["tenant_id"] [("id", .param 1)] [.text id]) with
      | .ok [.text tenantID] => p.isPlatform || tenantID == p.tenantID
      | _ => false
  | _ => true

def UpdateBody.ExecutedBy (encrypted : String → Except Err Json) (p : Principal) (id : String)
    (r : UpdateBody) (table : AdminTable) (code : AdminCode JsonResponse) : Prop :=
  ∀ reply : (c : AdminCall) → AdminReply c,
    (∀ raw, (reply (.encrypt raw)).map Json.str = encrypted raw) →
    executed reply code =
      if r.admitted reply p id then
        ((r.statement encrypted p id).map fun st =>
          (.update table st.sets st.conds, st.args)).toList
      else []

def tableEngine : Engine Unit Value where
  read _ v := some v
  same := Value.same
  null := .null
  valid _ _ := true
  references := []

def userRow (u : Nat × Account) : Row Value
  | "id" => .text (toString u.1)
  | "email" => .text u.2.email
  | "status" => .text u.2.status
  | _ => .null

def memberRow (m : TenantUser) : Row Value
  | "tenant_id" => .text m.tenantID
  | "user_id" => .text (toString m.userID)
  | _ => .null

def roleRow (role : Nat × Role) : Row Value
  | "id" => .text (toString role.1)
  | "tenant_id" => role.2.tenantID.elim .null .text
  | "name" => .text role.2.name
  | "key" => .text role.2.key
  | "scope" => .text role.2.scope
  | "status" => .text role.2.status
  | _ => .null

/-- The statement makes rows of others that agree with the ones given in some columns. -/
def BuiltUpdate.Makes (st : BuiltUpdate) (columns : List String)
    (members rows rows' : List (Row Value)) : Prop :=
  ∀ clock, ∃ out, st.run tableEngine clock members rows = some out ∧
    ∀ column ∈ columns, (out.map fun row => row column) = rows'.map fun row => row column

/-- What the handler of a request does is what its statement does, where the handler gets so far and
the database does not refuse the statement; else it leaves the tables alone. -/
def UpdateBody.Executes (encrypted : String → Except Err Json) (p : Principal) (id : String) :
    UpdateBody → Prop
  | .channel req =>
      (UpdateBody.channel req).ExecutedBy encrypted p id .tenantChannels (updateChannel p id req)
  | .providerConfig req => (UpdateBody.providerConfig req).ExecutedBy encrypted p id
      .tenantProviderConfigs (updateProviderConfig p id req)
  | .queueControl req => (UpdateBody.queueControl req).ExecutedBy encrypted p id
      .tenantQueueControls (updateQueueControl p id req)
  | .contact req =>
      (UpdateBody.contact req).ExecutedBy encrypted p id .contacts (updateContact p id req)
  | .campaign req =>
      (UpdateBody.campaign req).ExecutedBy encrypted p id .campaigns (updateCampaign p id req)
  | .user name email status => ∀ (n : Nat) (env : UserEnv) (db : CredDb), id = toString n →
      let (answer, db') := Users.updateUser p env n ⟨email, status⟩ db
      if answer.status = 500 then db' = db
      else ∃ st, (UpdateBody.user name email status).statement encrypted p id = some st ∧
        st.Makes ["id", "email", "status"] (db.tenantUsers.map memberRow)
          (db.accounts.rows.map userRow) (db'.accounts.rows.map userRow)
  | .role name status scope => ∀ (n : Nat) (env : RoleEnv) (db : AuthDb), id = toString n →
      let (answer, db') := Roles.updateRole p env n name status scope db
      if answer.status = 403 ∨ answer.status = 500 then db' = db
      else ∃ st, (UpdateBody.role name status scope).statement encrypted p id = some st ∧
        st.Makes ["id", "tenant_id", "name", "key", "scope", "status"] []
          (db.roles.rows.map roleRow) (db'.roles.rows.map roleRow)
  | .tenant name slug =>
      ∀ (cfg : ProvisionConfig) (env : Nat → StatementOutcome) (req : TenantProvisioningRequest)
        (db : AdminDb), req.name = name → req.slug = slug →
      if p.isPlatform = false then updateTenant cfg env p id (some req) db =
        (.error 403 "platform admin only", db)
      else
        let first := executeAll (ProvisionStep.exec cfg id env) 0 (tenantSteps req) db
        match (UpdateBody.tenant name slug).statement encrypted p id with
        | none => first = (.ok (), db)
        | some st =>
            match if (env 0).fail then none else adminEngine.exec (.time (env 0).now) st.args db
              (.update .tenants st.sets st.conds) with
            | some (_, db') => first = (.ok (), db')
            | none => ∃ e, first = (.error e, db)

section

variable {encrypted : String → Except Err Json} {p : Principal} {id : String} {r : UpdateBody}
  {st : BuiltUpdate}

private theorem setChecked_isOk {α : Type} {b : Builder} {column : String} {toValue : α → Value}
    {invalid : α → Bool} {message : String} {field : Option α} :
    (∃ b', b.setChecked column toValue invalid message field = .ok b') ↔
      ∀ v, field = some v → invalid v = false := by
  cases field with
  | none => simp [Builder.setChecked]
  | some v =>
      cases hv : invalid v with
      | true => simp [Builder.setChecked, hv]
      | false => simp [Builder.setChecked, hv]

theorem queueControlSets_isOk {req : QueueControlUpdate} {b : Builder} :
    (∃ b', queueControlSets req b = .ok b') ↔ req.InRange := by
  constructor
  · rintro ⟨b', h⟩
    obtain ⟨b₁, h₁, h⟩ := except_bind_ok h
    obtain ⟨b₂, h₂, h⟩ := except_bind_ok h
    obtain ⟨b₃, h₃, -⟩ := except_bind_ok h
    have hstatus := setChecked_isOk.mp ⟨b₁, h₁⟩
    have hattempts := setChecked_isOk.mp ⟨b₂, h₂⟩
    have hdelay := setChecked_isOk.mp ⟨b₃, h₃⟩
    constructor
    · intro s hs
      have hvalid := hstatus s hs
      simp only [Bool.and_eq_false_iff, bne_eq_false_iff_eq, or_assoc] at hvalid
      exact hvalid
    · intro n hn
      have hvalid := hattempts n hn
      simp only [Bool.or_eq_false_iff, decide_eq_false_iff_not] at hvalid
      omega
    · intro n hn
      have hvalid := hdelay n hn
      simp only [Bool.or_eq_false_iff, decide_eq_false_iff_not] at hvalid
      omega
  · intro h
    obtain ⟨b₁, h₁⟩ : ∃ b₁, b.setChecked "status" .text
        (fun s => s != "active" && s != "paused" && s != "stopped")
        "invalid status" req.status = .ok b₁ := by
      apply setChecked_isOk.mpr
      intro s hs
      rcases h.status s hs with rfl | rfl | rfl <;> rfl
    obtain ⟨b₂, h₂⟩ : ∃ b₂, b₁.setChecked "max_attempts" .int (fun n => n < 1 || n > 20)
        "max_attempts must be between 1 and 20" req.maxAttempts = .ok b₂ := by
      apply setChecked_isOk.mpr
      intro n hn
      have hrange := h.maxAttempts n hn
      simp only [Bool.or_eq_false_iff, decide_eq_false_iff_not]
      omega
    obtain ⟨b₃, h₃⟩ : ∃ b₃, b₂.setChecked "retry_delay_seconds" .int
        (fun n => n < 0 || n > 86400)
        "retry_delay_seconds must be between 0 and 86400" req.retryDelaySeconds = .ok b₃ := by
      apply setChecked_isOk.mpr
      intro n hn
      have hrange := h.retryDelaySeconds n hn
      simp only [Bool.or_eq_false_iff, decide_eq_false_iff_not]
      omega
    refine ⟨b₃.setSome "notes" .text req.notes, ?_⟩
    simp only [queueControlSets, h₁, Except.bind, h₂, h₃]

theorem statement_isSome_iff :
    (r.statement encrypted p id).isSome = true ↔ r.Accepted encrypted p := by
  cases r with
  | user name email status => simp [UpdateBody.statement, UpdateBody.Accepted]
  | channel req => simp [UpdateBody.statement, UpdateBody.Accepted]
  | contact req => simp [UpdateBody.statement, UpdateBody.Accepted]
  | campaign req => simp [UpdateBody.statement, UpdateBody.Accepted]
  | role name status scope => simp [UpdateBody.statement, UpdateBody.Accepted]
  | providerConfig req =>
      by_cases hconfig : req.configJSON = ""
      · simp [UpdateBody.statement, UpdateBody.Accepted, hconfig]
      · cases hencrypted : encrypted req.configJSON with
        | error e => simp [UpdateBody.statement, UpdateBody.Accepted, hconfig, hencrypted]
        | ok config => simp [UpdateBody.statement, UpdateBody.Accepted, hconfig, hencrypted]
  | queueControl req =>
      rw [UpdateBody.Accepted, ← queueControlSets_isOk (b := queueControlStart p),
        UpdateBody.statement]
      cases queueControlSets req (queueControlStart p) with
      | error message => simp
      | ok b => simp
  | tenant name slug =>
      rw [UpdateBody.Accepted, UpdateBody.statement]
      cases p.isPlatform with
      | false => simp
      | true =>
          by_cases hnone : name = "" ∧ slug = ""
          · simp [hnone]
          · have hsome : name ≠ "" ∨ slug ≠ "" := by tauto
            simp [hnone, hsome]

private theorem executed_answerAffected (reply : (c : AdminCall) → AdminReply c)
    (result : Except Err Nat) (failed missing : String) (event : AuditEvent) (done : String)
    (before : List (Sql.Stmt AdminTable Value × List Value)) :
    ((answerAffected result failed missing event done).eval (fun c done => (reply c, match c with
      | .exec s args => done ++ [(s, args)]
      | _ => done)) before).2 = before := by
  unfold answerAffected
  split
  · rfl
  · rfl
  · rfl

private theorem executed_limited (reply : (c : AdminCall) → AdminReply c) (table : AdminTable)
    (b : Builder) (failed missing : String) (event : AuditEvent) (done : String) :
    executed reply ((b.limited p id).update table >>= fun result =>
      answerAffected result failed missing event done) =
        [(.update table (b.limited p id).sets (b.limited p id).conds, (b.limited p id).args)] :=
  executed_answerAffected reply _ failed missing event done _

private theorem executed_providerConfig (req : ProviderConfigUpdate) :
    (UpdateBody.providerConfig req).ExecutedBy encrypted p id .tenantProviderConfigs
      (updateProviderConfig p id req) := by
  intro reply hreply
  have hadmitted : (UpdateBody.providerConfig req).admitted reply p id = true := rfl
  rw [hadmitted, if_pos rfl, UpdateBody.statement]
  unfold updateProviderConfig
  by_cases hconfig : req.configJSON = ""
  · simp only [hconfig, ne_eq, not_true_eq_false, if_false, providerConfigBuilder]
    exact executed_limited reply _ _ _ _ _ _
  · simp only [ne_eq, hconfig, not_false_eq_true, if_true]
    rw [← hreply]
    cases hencrypt : reply (.encrypt req.configJSON) with
    | error e =>
        show executed reply (.call (.encrypt req.configJSON) _) = _
        rw [executed, Prog.eval_call, hencrypt]
        rfl
    | ok text =>
        show executed reply (.call (.encrypt req.configJSON) _) = _
        rw [executed, Prog.eval_call, hencrypt]
        simp only [providerConfigBuilder, ne_eq, hconfig, not_false_eq_true, if_true]
        exact executed_limited reply _ _ _ _ _ _

private theorem executed_queueControl (req : QueueControlUpdate) :
    (UpdateBody.queueControl req).ExecutedBy encrypted p id .tenantQueueControls
      (updateQueueControl p id req) := by
  intro reply _
  show executed reply (.call (.selectRow .tenantQueueControls ["tenant_id"] [("id", .param 1)]
    [.text id]) _) = _
  rw [executed, Prog.eval_call, UpdateBody.admitted, UpdateBody.statement]
  dsimp only
  cases hrow : reply (.selectRow .tenantQueueControls ["tenant_id"] [("id", .param 1)]
      [.text id]) with
  | error e => rfl
  | ok row =>
      cases row with
      | nil => rfl
      | cons v rest =>
          cases v with
          | text tenantID =>
              cases rest with
              | cons v rest => rfl
              | nil =>
                  by_cases hforeign : p.isPlatform = false ∧ tenantID ≠ p.tenantID
                  · have hrefused : ¬(p.isPlatform || tenantID == p.tenantID) = true := by
                      simpa using hforeign
                    dsimp only [Prog.bind]
                    rw [if_pos hforeign, if_neg hrefused]
                    rfl
                  · have hadmitted : (p.isPlatform || tenantID == p.tenantID) = true := by
                      simp only [not_and, ne_eq, not_not] at hforeign
                      cases hplatform : p.isPlatform with
                      | true => rfl
                      | false => simpa using hforeign hplatform
                    dsimp only [Prog.bind]
                    rw [if_neg hforeign, if_pos hadmitted]
                    cases hsets : queueControlSets req (queueControlStart p) with
                    | error message =>
                        unfold queueControlStart at hsets
                        rw [hsets]
                        rfl
                    | ok b =>
                        unfold queueControlStart at hsets
                        rw [hsets]
                        show Prod.snd (Prog.eval _ (.call (AdminCall.exec _ _) _) _) = _
                        rw [Prog.eval_call]
                        cases hexec : reply (.exec (.update .tenantQueueControls
                            (b.cond "id" (.text id)).sets (b.cond "id" (.text id)).conds)
                            (b.cond "id" (.text id)).args) with
                        | error e => rfl
                        | ok n => rfl
          | _ => rfl

def BuiltUpdate.finds (conds : List (String × Value)) (members : Option (List (String × Value)))
    (tenantUsers : List (Row Value)) (row : Row Value) : Bool :=
  tableEngine.selects conds row &&
    members.all fun cols => tenantUsers.any (tableEngine.selects cols)

theorem BuiltUpdate.WritesOnly.run_eq {written conds : List (String × Value)}
    {members : Option (List (String × Value))} (h : st.WritesOnly written conds members)
    (clock : Value) (tenantUsers rows : List (Row Value)) :
    ∃ out, st.run tableEngine clock tenantUsers rows = some out ∧ ∀ column, column ∉ stampColumns →
      (out.map fun row => row column) = rows.map fun row =>
        if finds conds members tenantUsers row then (written.lookup column).getD (row column)
        else row column := by
  have hread : ∀ column v, tableEngine.read column v = some v := fun _ _ => rfl
  have hplaced : ∀ n ∈ Sql.placeholders st.sets, 0 < n ∧ n ≤ st.args.length := by
    intro n hn
    have hin : n ∈ st.placeholders := by
      rw [BuiltUpdate.placeholders, placeholders_append, placeholders_append]
      exact List.mem_append_left _ (List.mem_append_left _ hn)
    rw [h.placeholders, List.mem_range'_1] at hin
    omega
  obtain ⟨sets, hsets⟩ := exists_bindings clock hplaced
  have hwritten : (sets.filter fun c => c.1 ∉ stampColumns) = written := by
    have hassigned := h.assigned clock
    rw [hsets, List.filter_map] at hassigned
    have hinjective : Function.Injective fun c : String × Value => (c.1, some c.2) := by
      intro c c' hc
      obtain ⟨hcolumn, hvalue⟩ := Prod.mk.inj hc
      exact Prod.ext hcolumn (Option.some.inj hvalue)
    exact hinjective.list_map hassigned
  have hbound := Engine.bind_of_bindings (E := tableEngine) hread hsets
  have hconds := Engine.bind_of_bindings (E := tableEngine) hread (h.limited clock)
  have hmembers := h.memberships clock
  obtain ⟨bound, hjoined, hfinds⟩ : ∃ bound,
      tableEngine.bind clock st.args (st.members.getD []) = some bound ∧
      ∀ row, (tableEngine.selects conds row &&
        (st.members.isNone || tenantUsers.any (tableEngine.selects bound))) =
          finds conds members tenantUsers row := by
    cases hst : st.members with
    | none =>
        rw [hst] at hmembers
        cases members with
        | none => exact ⟨[], rfl, fun _ => rfl⟩
        | some cols => simp at hmembers
    | some terms =>
        rw [hst] at hmembers
        cases members with
        | none => simp at hmembers
        | some cols =>
            have hterms := Option.some.inj hmembers
            exact ⟨cols, Engine.bind_of_bindings hread hterms, fun _ => rfl⟩
  refine ⟨_, by rw [BuiltUpdate.run, hbound, hconds, hjoined], ?_⟩
  intro column hcolumn
  have hkind : decide (column ∉ stampColumns) = true := decide_eq_true hcolumn
  have hlookup : sets.lookup column = written.lookup column := by
    rw [← hwritten]
    exact (lookup_filter (p := fun column => column ∉ stampColumns) hkind sets).symm
  rw [List.map_map]
  apply List.map_congr_left
  intro row _
  rw [Function.comp_apply, hfinds]
  by_cases hrow : finds conds members tenantUsers row = true
  · rw [if_pos hrow, if_pos hrow, assign, hlookup]
  · rw [if_neg hrow, if_neg hrow]

theorem BuiltUpdate.WritesOnly.makes {α : Type} {written conds : List (String × Value)}
    {members : Option (List (String × Value))} (h : st.WritesOnly written conds members)
    {columns : List String} (hcolumns : ∀ column ∈ columns, column ∉ stampColumns)
    {tenantUsers : List (Row Value)} {toRow : α → Row Value} {rows : List α} {step : α → α}
    (hstep : ∀ a ∈ rows, ∀ column ∈ columns, toRow (step a) column =
      if finds conds members tenantUsers (toRow a) then
        (written.lookup column).getD (toRow a column)
      else toRow a column) :
    st.Makes columns tenantUsers (rows.map toRow) ((rows.map step).map toRow) := by
  intro clock
  obtain ⟨out, hrun, hout⟩ := h.run_eq clock tenantUsers (rows.map toRow)
  refine ⟨out, hrun, ?_⟩
  intro column hcolumn
  rw [hout column (hcolumns column hcolumn), List.map_map, List.map_map, List.map_map]
  apply List.map_congr_left
  intro a ha
  exact (hstep a ha column hcolumn).symm

theorem BuiltUpdate.WritesOnly.makes_same {α : Type} {written conds : List (String × Value)}
    {members : Option (List (String × Value))} (h : st.WritesOnly written conds members)
    {columns : List String} (hcolumns : ∀ column ∈ columns, column ∉ stampColumns)
    {tenantUsers : List (Row Value)} {toRow : α → Row Value} {rows : List α}
    (hnone : ∀ a ∈ rows, finds conds members tenantUsers (toRow a) = false) :
    st.Makes columns tenantUsers (rows.map toRow) (rows.map toRow) := by
  have hstep : ∀ a ∈ rows, ∀ column ∈ columns, toRow (id a) column =
      if finds conds members tenantUsers (toRow a) then
        (written.lookup column).getD (toRow a column)
      else toRow a column := by
    intro a ha column _
    rw [hnone a ha, if_neg Bool.false_ne_true]
    rfl
  have hmakes := h.makes hcolumns hstep
  rwa [List.map_id] at hmakes

private theorem toString_injective {m n : Nat} (h : toString m = toString n) : m = n := by
  have hdigits := congrArg String.toList h
  rw [Nat.toString_eq_ofList_toDigits, Nat.toString_eq_ofList_toDigits, String.toList_ofList,
    String.toList_ofList] at hdigits
  rw [← Nat.ofDigitChars_ten_toDigits (n := m), hdigits, Nat.ofDigitChars_ten_toDigits]

private theorem same_number (m n : Nat) :
    Value.same (.text (toString m)) (.text (toString n)) = (m == n) := by
  by_cases h : m = n
  · subst h
    simp [Value.same]
  · have hne : (toString m == toString n) = false :=
      beq_eq_false_iff_ne.mpr fun heq => h (toString_injective heq)
    show (toString m == toString n) = _
    rw [hne]
    exact (beq_eq_false_iff_ne.mpr h).symm

private theorem lookup_textField (column c text : String) (rest : List (String × Value)) :
    (textField c text ++ rest).lookup column =
      if column = c ∧ text ≠ "" then some (.text text) else rest.lookup column := by
  unfold textField
  by_cases htext : text = ""
  · rw [if_pos htext, if_neg (by simp [htext])]
    rfl
  · rw [if_neg htext, List.singleton_append, List.lookup_cons]
    by_cases hcolumn : column = c
    · simp [hcolumn, htext]
    · have hne : (column == c) = false := beq_eq_false_iff_ne.mpr hcolumn
      rw [hne, if_neg fun h => hcolumn h.1]

private theorem lookup_written_user (column name email status : String) :
    ((UpdateBody.user name email status).written encrypted p).lookup column =
      if column = "name" ∧ name ≠ "" then some (.text name)
      else if column = "email" ∧ email ≠ "" then some (.text email)
      else if column = "status" ∧ status ≠ "" then some (.text status) else none := by
  rw [UpdateBody.written_eq fun _ => rfl, UpdateBody.supplied, List.append_assoc,
    ← List.append_nil (textField "status" status), lookup_textField, lookup_textField,
    lookup_textField]
  rfl

private theorem finds_user (p : Principal) (n : Nat) (name email status : String)
    (members : List TenantUser) (u : Nat × Account) :
    BuiltUpdate.finds ((UpdateBody.user name email status).conditions p (toString n))
      ((UpdateBody.user name email status).memberships p (toString n)) (members.map memberRow)
      (userRow u) = (u.1 == n && (p.isPlatform ||
        members.any fun tu => tu.userID == n && tu.tenantID == p.tenantID)) := by
  have hrow : tableEngine.selects ((UpdateBody.user name email status).conditions p (toString n))
      (userRow u) = (u.1 == n) := by
    show (Value.same (.text (toString u.1)) (.text (toString n)) && true) = _
    rw [same_number, Bool.and_true]
  rw [BuiltUpdate.finds, hrow, UpdateBody.memberships]
  cases p.isPlatform with
  | true => rfl
  | false =>
      have hmember : ∀ tu : TenantUser, tableEngine.selects [("user_id", .text (toString n)),
          ("tenant_id", .text p.tenantID)] (memberRow tu) =
            (tu.userID == n && tu.tenantID == p.tenantID) := by
        intro tu
        show (Value.same (.text (toString tu.userID)) (.text (toString n)) &&
          (Value.same (.text tu.tenantID) (.text p.tenantID) && true)) = _
        rw [same_number, Bool.and_true]
        rfl
      show (u.1 == n && (members.map memberRow).any _) = _
      rw [List.any_map, Bool.false_or]
      congr 2
      funext tu
      exact hmember tu

private theorem executes_user (name email status : String) :
    (UpdateBody.user name email status).Executes encrypted p id := by
  intro n env db hid
  subst hid
  dsimp only
  have hst : (UpdateBody.user name email status).statement encrypted p (toString n) =
      some (userStatement p (toString n) (userBuilder name email status)) := rfl
  have hwrites := statement_writesOnly hst
  have hcolumns : ∀ column ∈ ["id", "email", "status"], column ∉ stampColumns := by decide
  unfold Users.updateUser
  by_cases hfails : env.writeFails = true
  · rw [if_pos hfails]
    exact if_pos rfl ▸ rfl
  rw [if_neg hfails]
  cases hwritable : db.writableUser p n with
  | false =>
      refine ⟨_, hst, hwrites.makes_same hcolumns ?_⟩
      intro u hu
      rw [finds_user]
      by_cases hid : u.1 = n
      · subst hid
        have hget : db.accounts.get? u.1 = some u.2 := Table.get?_eq_some.mpr hu
        rw [CredDb.writableUser, hget, Option.isSome_some, Bool.true_and] at hwritable
        rw [hwritable, Bool.and_false]
      · rw [beq_eq_false_iff_ne.mpr hid, Bool.false_and]
  | true =>
      have hadmitted := (Bool.and_eq_true_iff.mp hwritable).2
      by_cases htaken : email ≠ "" ∧
          db.accounts.rows.any (fun u => u.1 != n && u.2.email == email) = true
      · rw [Bool.not_true, if_neg Bool.false_ne_true, if_pos htaken]
        exact if_pos rfl ▸ rfl
      · rw [Bool.not_true, if_neg Bool.false_ne_true, if_neg htaken]
        refine ⟨_, hst, hwrites.makes hcolumns ?_⟩
        intro u _ column hcolumn
        rw [finds_user, hadmitted, Bool.and_true, lookup_written_user]
        by_cases hid : u.1 = n
        · rw [if_pos hid, if_pos (beq_iff_eq.mpr hid)]
          simp only [List.mem_cons, List.not_mem_nil, or_false] at hcolumn
          rcases hcolumn with rfl | rfl | rfl
          · rfl
          · by_cases hemail : email = "" <;> simp [userRow, hemail]
          · by_cases hstatus : status = "" <;> simp [userRow, hstatus]
        · have hne : ¬(u.1 == n) = true := fun h => hid (beq_iff_eq.mp h)
          rw [if_neg hid, if_neg hne]

private theorem lookup_written_role (column name status scope : String) :
    ((UpdateBody.role name status scope).written encrypted p).lookup column =
      if column = "name" ∧ name ≠ "" then some (.text name)
      else if column = "status" ∧ status ≠ "" then some (.text status)
      else if column = "scope" ∧ scope ≠ "" ∧ p.isPlatform = true then some (.text scope)
      else none := by
  rw [UpdateBody.written_role, List.append_assoc, lookup_textField, lookup_textField]
  congr 2
  cases p.isPlatform with
  | false => simp
  | true =>
      rw [if_pos rfl, ← List.append_nil (textField "scope" scope), lookup_textField]
      simp only [and_true]
      rfl

private theorem finds_role (p : Principal) (n : Nat) (name status scope : String)
    (members : List (Row Value)) (role : Nat × Role) :
    BuiltUpdate.finds ((UpdateBody.role name status scope).conditions p (toString n))
      ((UpdateBody.role name status scope).memberships p (toString n)) members (roleRow role) =
        (role.1 == n && (p.isPlatform || role.2.tenantID == some p.tenantID)) := by
  have hid : Value.same (roleRow role "id") (.text (toString n)) = (role.1 == n) :=
    same_number role.1 n
  have htenant : Value.same (roleRow role "tenant_id") (.text p.tenantID) =
      (role.2.tenantID == some p.tenantID) := by
    show Value.same (role.2.tenantID.elim .null .text) (.text p.tenantID) = _
    cases role.2.tenantID with
    | none => rfl
    | some t => rfl
  rw [BuiltUpdate.finds, UpdateBody.conditions]
  cases p.isPlatform with
  | true =>
      show ((Value.same (roleRow role "id") (.text (toString n)) && true) && true) = _
      rw [hid, Bool.and_true]
      rfl
  | false =>
      show ((Value.same (roleRow role "id") (.text (toString n)) &&
        (Value.same (roleRow role "tenant_id") (.text p.tenantID) && true)) && true) = _
      rw [hid, htenant, Bool.and_true, Bool.and_true]
      rfl

private theorem executes_role (name status scope : String) :
    (UpdateBody.role name status scope).Executes encrypted p id := by
  intro n env db hid
  subst hid
  dsimp only
  have hst : (UpdateBody.role name status scope).statement encrypted p (toString n) =
      some (roleStatement p (toString n) (roleBuilder p name status scope)) := rfl
  have hwrites := statement_writesOnly hst
  have hcolumns : ∀ column ∈ ["id", "tenant_id", "name", "key", "scope", "status"],
      column ∉ stampColumns := by decide
  unfold Roles.updateRole
  by_cases hguarded : Roles.guarded p (db.existing env n) = true
  · rw [if_pos hguarded]
    exact if_pos (Or.inl rfl) ▸ rfl
  rw [if_neg hguarded]
  by_cases hfails : env.fails .write = true
  · rw [if_pos hfails]
    exact if_pos (Or.inr rfl) ▸ rfl
  rw [if_neg hfails]
  cases hwritable : db.writable p n with
  | false =>
      refine ⟨_, hst, hwrites.makes_same hcolumns ?_⟩
      intro role hrole
      rw [finds_role]
      by_cases hid : role.1 = n
      · subst hid
        have hget : db.roles.get? role.1 = some role.2 := Table.get?_eq_some.mpr hrole
        rw [AuthDb.writable, hget] at hwritable
        have hforeign : (p.isPlatform || role.2.tenantID == some p.tenantID) = false := hwritable
        rw [hforeign, Bool.and_false]
      · rw [beq_eq_false_iff_ne.mpr hid, Bool.false_and]
  | true =>
      rw [Bool.not_true, if_neg Bool.false_ne_true]
      refine ⟨_, hst, hwrites.makes hcolumns ?_⟩
      intro role hrole column hcolumn
      rw [finds_role, lookup_written_role]
      by_cases hid : role.1 = n
      · have hadmitted : (p.isPlatform || role.2.tenantID == some p.tenantID) = true := by
          subst hid
          rwa [AuthDb.writable, Table.get?_eq_some.mpr hrole] at hwritable
        rw [if_pos hid, hadmitted, if_pos (by rw [beq_iff_eq.mpr hid, Bool.and_true])]
        simp only [List.mem_cons, List.not_mem_nil, or_false] at hcolumn
        rcases hcolumn with rfl | rfl | rfl | rfl | rfl | rfl
        · rfl
        · rfl
        · by_cases hname : name = "" <;> simp [roleRow, hname]
        · rfl
        · by_cases hscope : scope ≠ "" ∧ p.isPlatform = true <;> simp [roleRow, hscope]
        · by_cases hstatus : status = "" <;> simp [roleRow, hstatus]
      · have hne : ¬(role.1 == n && (p.isPlatform || role.2.tenantID == some p.tenantID)) = true :=
          fun h => hid (beq_iff_eq.mp (Bool.and_eq_true_iff.mp h).1)
        rw [if_neg hid, if_neg hne]

private theorem executes_tenant (name slug : String) :
    (UpdateBody.tenant name slug).Executes encrypted p id := by
  rintro cfg env req db rfl rfl
  cases hplatform : p.isPlatform with
  | false =>
      rw [if_pos rfl, updateTenant, hplatform]
      rfl
  | true =>
      rw [if_neg (by simp), UpdateBody.statement, hplatform]
      by_cases hnone : req.name = "" ∧ req.slug = ""
      · have hsteps : tenantSteps req = [] := if_pos hnone
        rw [if_pos (.inr hnone), hsteps]
        rfl
      · have hsteps : tenantSteps req = [.tenant req.name req.slug] := if_neg hnone
        rw [if_neg (by simp [hnone]), hsteps]
        dsimp only
        by_cases hfail : (env 0).fail = true
        · have hfirst : ProvisionStep.exec cfg id env 0 (.tenant req.name req.slug) db =
              .error .driver := if_pos hfail
          rw [if_pos hfail]
          exact ⟨.driver, executeAll_error hfirst⟩
        · have hfirst : ProvisionStep.exec cfg id env 0 (.tenant req.name req.slug) db =
              ProvisionStep.effect cfg id (env 0) db (.tenant req.name req.slug) := if_neg hfail
          rw [if_neg hfail]
          unfold ProvisionStep.effect at hfirst
          dsimp only at hfirst
          dsimp only [BuiltUpdate.ofBuilder]
          cases hexec : adminEngine.exec (.time (env 0).now) (tenantUpdate id req.name req.slug).args
              db (.update .tenants (tenantUpdate id req.name req.slug).sets
                (tenantUpdate id req.name req.slug).conds) with
          | none =>
              rw [hexec] at hfirst
              exact ⟨_, executeAll_error hfirst⟩
          | some made =>
              rw [hexec] at hfirst
              exact (executeAll_ok hfirst).trans rfl

theorem executes : r.Executes encrypted p id := by
  cases r with
  | user name email status => exact executes_user name email status
  | channel req => exact fun reply _ => executed_limited reply _ (channelBuilder req) _ _ _ _
  | providerConfig req => exact executed_providerConfig req
  | queueControl req => exact executed_queueControl req
  | contact req => exact fun reply _ => executed_limited reply _ (contactBuilder req) _ _ _ _
  | campaign req => exact fun reply _ => executed_limited reply _ (campaignBuilder req) _ _ _ _
  | role name status scope => exact executes_role name status scope
  | tenant name slug => exact executes_tenant name slug

/-- Every accepted request is given one statement, which writes the fields that the principal may
set and is what the handler executes; the two queries of the list of logs ask for the same rows. -/
theorem built_statements (encrypted : String → Except Err Json) (p : Principal) (id : String)
    (r : UpdateBody) (x : Texts) (query : Values) :
    ((r.statement encrypted p id).isSome = true ↔ r.Accepted encrypted p) ∧
      (∀ st, r.statement encrypted p id = some st →
        st.WritesOnly (r.written encrypted p) (r.conditions p id) (r.memberships p id)) ∧
      r.Executes encrypted p id ∧
      (countQuery x p query).predicate = boundTo x (logConditions p query) ∧
      (logPageQuery x p query).predicate = (countQuery x p query).predicate ∧
      (logPageQuery x p query).window.map (fun w =>
          ((logPageQuery x p query).arg? w.1, (logPageQuery x p query).arg? w.2)) =
        some (some (.int (pagination query).2.1), some (.int (pagination query).2.2)) ∧
      ∀ s, (countQuery x p query).rows x s = logRows x s (logConditions p query) ∧
        (logPageQuery x p query).rows x s = logRows x s (logConditions p query) := by
  obtain ⟨hcount, hpage⟩ :
      (countQuery x p query).predicate = boundTo x (logConditions p query) ∧
        (logPageQuery x p query).predicate = (countQuery x p query).predicate :=
    logQueries_predicate
  refine ⟨statement_isSome_iff, fun st => statement_writesOnly, executes, hcount, hpage,
    logPageQuery_window, fun s => ⟨?_, ?_⟩⟩
  · exact rows_of_predicate s hcount
  · exact rows_of_predicate s (hpage.trans hcount)

theorem built_statements_contact :
    (BuiltUpdate.mk "contacts"
      [("updated_at", .now), ("name", .param 1), ("phone", .param 2)]
      [("id", .param 3), ("tenant_id", .param 4)] none
      [.text "Ada", .text "+977", .text "c1", .text "t1"]).WritesOnly
        [("name", .text "Ada"), ("phone", .text "+977")]
        [("id", .text "c1"), ("tenant_id", .text "t1")] none :=
  (built_statements (fun _ => .ok .null) ⟨7, "t1", false, []⟩ "c1" (.contact ⟨"Ada", "", "+977"⟩)
    sampleTexts []).2.1 _ rfl

/-- The scope that the administrator of a tenant supplies is dropped, and the answer is 200. -/
theorem role_scope_dropped :
    let p : Principal := ⟨7, "t1", false, []⟩
    let encrypted : String → Except Err Json := fun _ => .ok .null
    let role : Role := ⟨some "t1", "Editors", "editors", "tenant", "active"⟩
    let db : AuthDb := ⟨["t1"], [7], .empty, ⟨[(1, role)], by simp⟩, [], .empty, []⟩
    let result := Roles.updateRole p ⟨fun _ => false, "", 2⟩ 1 "" "" "platform" db
    result.1.status = 200 ∧ result.2.roles.rows = [(1, role)] ∧
      (UpdateBody.role "" "" "platform").supplied encrypted = [("scope", .text "platform")] ∧
      ¬∀ st, (UpdateBody.role "" "" "platform").statement encrypted p "1" = some st →
        st.WritesOnly ((UpdateBody.role "" "" "platform").supplied encrypted)
          ((UpdateBody.role "" "" "platform").conditions p "1")
          ((UpdateBody.role "" "" "platform").memberships p "1") := by
  refine ⟨rfl, rfl, rfl, ?_⟩
  intro h
  have hassigned := (h _ rfl).assigned .null
  exact absurd (congrArg List.length hassigned) (by decide)

end

end NotificationPlatform
