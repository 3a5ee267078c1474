import NotificationPlatform.TenantWrites

/-!
# What the calls of a handler leave

A handler of the admin API ends in one of two ways: it inserts a row or changes rows by one
statement, and a success is followed by an audit event. The tables besides the audit log are those
that the statement left.
-/

namespace NotificationPlatform

open Lib Lib.Sql

section

variable {env : Nat → AdminOutcome} {s : AdminState} {db db' : AdminDb} {o : AdminOutcome}

theorem call_cases (env : Nat → AdminOutcome) (c : AdminCall) (s : AdminState) :
    (∃ e, s.call env c = (.error e, ⟨s.db, s.calls + 1⟩)) ∨
      ∃ r db', (env s.calls).fail = false ∧ s.db.perform (env s.calls) c = .ok (r, db') ∧
        s.call env c = (.ok r, ⟨db', s.calls + 1⟩) := by
  unfold AdminState.call
  dsimp only
  cases hfail : (env s.calls).fail with
  | true => exact .inl ⟨.driver, rfl⟩
  | false =>
      cases hperform : s.db.perform (env s.calls) c with
      | error e => exact .inl ⟨e, rfl⟩
      | ok p => exact .inr ⟨p.1, p.2, rfl, rfl, rfl⟩

theorem perform_update {table : AdminTable} {sets conds : Terms Value} {args : List Value} {n : Nat}
    (h : db.perform o (.exec (.update table sets conds) args) = .ok (n, db')) :
    ∃ bsets bconds, adminEngine.bind (.time o.now) args sets = some bsets ∧
      adminEngine.bind (.time o.now) args conds = some bconds ∧
      db' = fun u => (db u).filterMap (adminEngine.updated table bsets bconds u) := by
  rcases adminEngine.exec_cases (exec_of_perform h) with
    ⟨_, _, _, bsets, bconds, heq, hsets, hconds, hdb⟩ | ⟨_, _, _, heq, -⟩
  · cases heq
    exact ⟨bsets, bconds, hsets, hconds, hdb⟩
  · cases heq

theorem perform_update_count {table : AdminTable} {sets conds : Terms Value} {args : List Value}
    {n : Nat} {bconds : List (String × Value)}
    (hconds : adminEngine.bind (.time o.now) args conds = some bconds)
    (h : db.perform o (.exec (.update table sets conds) args) = .ok (n, db')) :
    n = ((db table).filter (adminEngine.selects bconds)).length := by
  have hexec := exec_of_perform h
  simp only [Engine.exec, hconds] at hexec
  split at hexec
  · next hbound =>
      obtain rfl := Option.some.inj hbound
      split at hexec
      · exact (Prod.mk.inj (Option.some.inj hexec)).1.symm
      · simp at hexec
  · simp at hexec

theorem perform_insert {table : AdminTable} {values : Terms Value} {args : List Value} {id : String}
    (h : db.perform o (.insert table values args) = .ok (id, db')) :
    ∃ bound, adminEngine.bind (.time o.now) args values = some bound ∧ id = o.id ∧
      adminEngine.insert db table (table.newRow o.id o.now bound) = some db' := by
  simp only [AdminDb.perform] at h
  split at h
  · simp at h
  · next bound hbound =>
      split at h
      · next db'' hinsert =>
          obtain ⟨rfl, rfl⟩ := Prod.mk.inj (Except.ok.inj h)
          exact ⟨bound, hbound, rfl, hinsert⟩
      · simp at h

theorem audit_frame (event : AuditEvent) {u : AdminTable} (hu : u ≠ .auditLogs) :
    (s.call env (.audit event)).2.db u = s.db u := by
  rcases call_cases env (.audit event) s with ⟨e, heq⟩ | ⟨r, db', -, hperform, heq⟩
  · rw [heq]
  · rw [heq]
    simp only [AdminDb.perform] at hperform
    split at hperform
    · next hinsert =>
        obtain ⟨-, rfl⟩ := Prod.mk.inj (Except.ok.inj hperform)
        obtain ⟨_, -, hinsert⟩ := AdminDb.insertAudit_eq_some hinsert
        obtain ⟨-, rfl⟩ := adminEngine.insert_cases hinsert
        exact if_neg hu
    · simp at hperform

theorem answerAffected_frame (r : Except Err Nat) (failed missing : String) (event : AuditEvent)
    (done : String) {u : AdminTable} (hu : u ≠ .auditLogs) :
    ((answerAffected r failed missing event done).eval (AdminState.call env) s).2.db u = s.db u := by
  unfold answerAffected
  split
  · rfl
  · rfl
  · exact audit_frame event hu

theorem answerCreated_frame (r : Except Err String) (failed : Err → JsonResponse)
    (event : String → AuditEvent) (done : String) {u : AdminTable} (hu : u ≠ .auditLogs) :
    ((answerCreated r failed event done).eval (AdminState.call env) s).2.db u = s.db u := by
  unfold answerCreated
  split
  · rfl
  · exact audit_frame _ hu

/-- A handler that changes rows by one update changes what the conditions select, and says so if
they select any row; otherwise it leaves its table as it was. -/
theorem update_answer {table : AdminTable} (htable : table ≠ .auditLogs) {sets conds : Terms Value}
    {args : List Value} (failed missing : String) (event : AuditEvent) (done : String) :
    let r := (write (.update table sets conds) args >>= fun r =>
      answerAffected r failed missing event done).eval (AdminState.call env) s
    (r.1.status ≠ 200 ∧ r.2.db table = s.db table) ∨
      (r.1.status = 200 ∧ ∃ bsets bconds,
        adminEngine.bind (.time (env s.calls).now) args sets = some bsets ∧
        adminEngine.bind (.time (env s.calls).now) args conds = some bconds ∧
        (∃ row ∈ s.db table, adminEngine.selects bconds row = true) ∧
        r.2.db table = (s.db table).map fun row =>
          if adminEngine.selects bconds row then assign bsets row else row) := by
  dsimp only
  rw [Prog.eval_bind, answerAffected_frame _ _ _ _ _ htable]
  rcases call_cases env (.exec (.update table sets conds) args) s with
    ⟨e, heq⟩ | ⟨n, db', -, hperform, heq⟩
  · have hwrite : (write (.update table sets conds) args).eval (AdminState.call env) s =
        (.error e, ⟨s.db, s.calls + 1⟩) := heq
    rw [hwrite]
    exact .inl ⟨by simp [answerAffected, JsonResponse.error], rfl⟩
  · have hwrite : (write (.update table sets conds) args).eval (AdminState.call env) s =
        (.ok n, ⟨db', s.calls + 1⟩) := heq
    obtain ⟨bsets, bconds, hsets, hconds, hdb⟩ := perform_update hperform
    have hcount := perform_update_count hconds hperform
    have hrows : db' table = (s.db table).map fun row =>
        if adminEngine.selects bconds row then assign bsets row else row := by
      rw [hdb]
      exact Engine.filterMap_updated (s.db table)
    rw [hwrite]
    cases n with
    | zero =>
        left
        refine ⟨by simp [answerAffected, JsonResponse.error], ?_⟩
        have hnone : (s.db table).filter (adminEngine.selects bconds) = [] :=
          List.eq_nil_of_length_eq_zero hcount.symm
        dsimp only
        rw [hrows]
        -- no row is selected
        refine (List.map_congr_left ?_).trans (List.map_id _)
        intro row hrow
        rw [if_neg (List.filter_eq_nil_iff.mp hnone row hrow)]
        rfl
    | succ n =>
        right
        refine ⟨rfl, bsets, bconds, hsets, hconds, ?_, hrows⟩
        have hpos : 0 < ((s.db table).filter (adminEngine.selects bconds)).length := by omega
        obtain ⟨row, hrow⟩ := List.exists_mem_of_length_pos hpos
        exact ⟨row, List.mem_filter.mp hrow⟩

theorem update_rows {table : AdminTable} (htable : table ≠ .auditLogs) {sets conds : Terms Value}
    {args : List Value} (failed missing : String) (event : AuditEvent) (done : String) :
    let s' := ((write (.update table sets conds) args >>= fun r =>
      answerAffected r failed missing event done).eval (AdminState.call env) s).2
    s'.db table = s.db table ∨
      ∃ bsets bconds, adminEngine.bind (.time (env s.calls).now) args sets = some bsets ∧
        adminEngine.bind (.time (env s.calls).now) args conds = some bconds ∧
        s'.db table = (s.db table).map fun row =>
          if adminEngine.selects bconds row then assign bsets row else row := by
  rcases @update_answer env s table htable sets conds args failed missing event done with
    ⟨-, hrows⟩ | ⟨-, bsets, bconds, hsets, hconds, -, hrows⟩
  · exact .inl hrows
  · exact .inr ⟨bsets, bconds, hsets, hconds, hrows⟩

theorem newRow_of_mem {table : AdminTable} {id : String} {now : Int}
    {values : List (String × Value)} {column : String} {v : Value} (hcolumn : column ≠ "id")
    (hnodup : (values.map Prod.fst).Nodup) (hmem : (column, v) ∈ values) :
    table.newRow id now values column = v := by
  have hassign : assign values (table.default now) column = v := assign_of_mem hnodup hmem
  rw [AdminTable.newRow, if_neg hcolumn]
  exact hassign

theorem newRow_of_bind (table : AdminTable) (id : String) (now : Int) {clock : Value}
    {values : Terms Value} {args : List Value} {bound : List (String × Value)} {column : String}
    {term : Term Value} (hbound : adminEngine.bind clock args values = some bound)
    (hnodup : (values.map Prod.fst).Nodup) (hmem : (column, term) ∈ values)
    (hcolumn : column ≠ "id") :
    (term.eval clock args).bind (readColumn column) = some (table.newRow id now bound column) := by
  obtain ⟨v, hv, heval⟩ := Engine.exists_bound hbound hmem
  rw [← Engine.bound_columns hbound] at hnodup
  rw [newRow_of_mem hcolumn hnodup hv]
  exact heval

theorem newRow_of_notMem {table : AdminTable} {id : String} {now : Int}
    {values : List (String × Value)} {column : String} (hcolumn : column ≠ "id")
    (hnotMem : column ∉ values.map Prod.fst) :
    table.newRow id now values column = table.default now column := by
  have hassign : assign values (table.default now) column = table.default now column :=
    assign_of_notMem hnotMem
  rw [AdminTable.newRow, if_neg hcolumn]
  exact hassign

theorem insert_rows {table : AdminTable} (htable : table ≠ .auditLogs) {values : Terms Value}
    {args : List Value} (failed : Err → JsonResponse) (event : String → AuditEvent)
    (done : String) :
    let s' := ((insertRow table values args >>= fun r =>
      answerCreated r failed event done).eval (AdminState.call env) s).2
    s'.db table = s.db table ∨
      ∃ bound, adminEngine.bind (.time (env s.calls).now) args values = some bound ∧
        s'.db table = s.db table ++
          [table.newRow (env s.calls).id (env s.calls).now bound] := by
  dsimp only
  rw [Prog.eval_bind, answerCreated_frame _ _ _ _ htable]
  rcases call_cases env (.insert table values args) s with
    ⟨e, heq⟩ | ⟨id, db', -, hperform, heq⟩
  · left
    exact congrArg (fun r => r.2.db table) heq
  · right
    obtain ⟨bound, hbound, rfl, hinsert⟩ := perform_insert hperform
    obtain ⟨-, rfl⟩ := adminEngine.insert_cases hinsert
    refine ⟨bound, hbound, ?_⟩
    exact (congrArg (fun r => r.2.db table) heq).trans (if_pos rfl)

end

/-! ## Statements about one row -/

/-- The principal may write the row under the identifier: a tenant's principal only its own. -/
def mayWrite (p : Principal) (id : String) (row : Row Value) : Prop :=
  (∃ key, Uuid.read id = some key ∧ row "id" = .text key) ∧
    (p.isPlatform = false → ∃ t, Uuid.read p.tenantID = some t ∧ row "tenant_id" = .text t)

section

variable {p : Principal}

theorem mayWrite_of_selects {table : AdminTable} (howner : table.ownerColumn = "tenant_id")
    {clock : Value} {conds : Terms Value} {args : List Value} {bconds : List (String × Value)}
    (hconds : adminEngine.bind clock args conds = some bconds)
    {id : String} {n : Nat} (hid : ("id", .param (n + 1)) ∈ conds)
    (harg : args[n]? = some (.text id)) (hlimited : Limited p table conds args)
    {row : Row Value} (hselects : adminEngine.selects bconds row = true) : mayWrite p id row := by
  refine ⟨AdminDb.selected_text hconds hselects (by decide) hid harg, ?_⟩
  intro hp
  obtain ⟨k, hk, htenant⟩ := hlimited hp
  rw [howner] at hk
  exact AdminDb.selected_text hconds hselects (by decide) hk htenant

theorem limited_id {b : Builder} (h : b.Numbered) (id : String) :
    ∃ n, ("id", .param (n + 1)) ∈ (b.limited p id).conds ∧
      (b.limited p id).args[n]? = some (.text id) := by
  obtain ⟨n, hmem, harg⟩ := h.cond_mem "id" (.text id)
  unfold Builder.limited
  dsimp only
  split
  · exact ⟨n, hmem, harg⟩
  · refine ⟨n, List.mem_append_left _ hmem, ?_⟩
    have hn : n < (b.cond "id" (.text id)).args.length := (List.getElem?_eq_some_iff.mp harg).1
    exact (List.getElem?_append_left hn).trans harg

theorem limited_sets (b : Builder) (id : String) : (b.limited p id).sets = b.sets := by
  unfold Builder.limited
  dsimp only
  split <;> rfl

theorem limited_arg {b : Builder} (id : String) {k : Nat} {v : Value} (h : b.args[k]? = some v) :
    (b.limited p id).args[k]? = some v := by
  have hcond : ∀ (b : Builder) (column : String) (w : Value), b.args[k]? = some v →
      (b.cond column w).args[k]? = some v := by
    intro b column w h
    have hk : k < b.args.length := (List.getElem?_eq_some_iff.mp h).1
    exact (List.getElem?_append_left hk).trans h
  unfold Builder.limited
  dsimp only
  split
  · exact hcond b "id" _ h
  · exact hcond _ "tenant_id" _ (hcond b "id" _ h)

theorem setText_columns (b : Builder) (column text : String) :
    (b.setText column text).sets.map Prod.fst =
      b.sets.map Prod.fst ++ if text = "" then [] else [column] := by
  unfold Builder.setText
  by_cases htext : text = "" <;> simp [htext, Builder.set]

theorem setSome_columns {α : Type} (b : Builder) (column : String) (toValue : α → Value)
    (field : Option α) : (b.setSome column toValue field).sets.map Prod.fst =
      b.sets.map Prod.fst ++ if field.isNone then [] else [column] := by
  cases field <;> simp [Builder.setSome, Builder.set]

theorem set_mem {b : Builder} (h : b.Numbered) (column : String) (v : Value) :
    (column, .param (b.args.length + 1)) ∈ (b.set column v).sets ∧
      (b.set column v).args[b.args.length]? = some v :=
  ⟨by simp [Builder.set, h.next], by simp [Builder.set]⟩

theorem setText_mem {b : Builder} (h : b.Numbered) (column : String) {text : String}
    (htext : text ≠ "") :
    (column, .param (b.args.length + 1)) ∈ (b.setText column text).sets ∧
      (b.setText column text).args[b.args.length]? = some (.text text) := by
  unfold Builder.setText
  rw [if_pos htext]
  exact set_mem h column _

theorem limited_columns {b : Builder} (hconds : b.conds = []) (id : String) :
    (b.limited p id).conds.map Prod.fst =
      if p.isPlatform then ["id"] else ["id", "tenant_id"] := by
  cases hp : p.isPlatform <;> simp [Builder.limited, Builder.cond, hconds, hp]

/-- An update of one row that succeeds assigns its columns to every row that the principal may
write under the identifier. -/
theorem limited_update_row {env : Nat → AdminOutcome} {s : AdminState} {table : AdminTable}
    (howner : table.ownerColumn = "tenant_id") (htable : table ≠ .auditLogs) {b : Builder}
    (hb : b.Numbered) (hconds : b.conds = []) {id failed missing : String} {event : AuditEvent}
    {done : String} {r : JsonResponse × AdminState}
    (h : ((b.limited p id).update table >>= fun r =>
      answerAffected r failed missing event done).eval (AdminState.call env) s = r)
    (hok : r.1.status = 200) {i : Nat} {row : Row Value} (hrow : (s.db table)[i]? = some row)
    (hwrites : mayWrite p id row) :
    ∃ bsets, adminEngine.bind (.time (env s.calls).now) (b.limited p id).args b.sets =
      some bsets ∧ (r.2.db table)[i]? = some (assign bsets row) := by
  rcases @update_answer env s table htable (b.limited p id).sets (b.limited p id).conds
    (b.limited p id).args failed missing event done with
    ⟨hstatus, -⟩ | ⟨-, bsets, bconds, hsets, hbound, ⟨hit, -, hselected⟩, hrows⟩
  · rw [← h] at hok
    exact absurd hok hstatus
  obtain ⟨n, hid, harg⟩ := limited_id hb id
  have hhit := mayWrite_of_selects howner hbound hid harg (hb.limited p id howner) hselected
  -- the row agrees with the one that was selected
  have hselects : adminEngine.selects bconds row = true := by
    rw [← hselected]
    apply Engine.selects_congr
    intro column hcolumn
    rw [Engine.bound_columns hbound, limited_columns hconds] at hcolumn
    obtain ⟨⟨key, hkey, hrowid⟩, htenant⟩ := hwrites
    obtain ⟨⟨key', hkey', hhitid⟩, htenant'⟩ := hhit
    have hsame : row "id" = hit "id" := by
      rw [hrowid, hhitid, Option.some.inj (hkey.symm.trans hkey')]
    cases hp : p.isPlatform with
    | true =>
        rw [hp, if_pos rfl, List.mem_singleton] at hcolumn
        rw [hcolumn, hsame]
    | false =>
        rw [hp, if_neg (by decide)] at hcolumn
        rcases List.mem_cons.mp hcolumn with rfl | hcolumn
        · exact hsame
        · obtain ⟨t, ht, hrowt⟩ := htenant hp
          obtain ⟨t', ht', hhitt⟩ := htenant' hp
          rw [List.mem_singleton.mp hcolumn, hrowt, hhitt, Option.some.inj (ht.symm.trans ht')]
  rw [limited_sets] at hsets
  refine ⟨bsets, hsets, ?_⟩
  rw [← h]
  refine (congrArg (fun rows => rows[i]?) hrows).trans ?_
  rw [List.getElem?_map, hrow]
  simp [hselects]

end

end NotificationPlatform
