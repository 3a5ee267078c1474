import NotificationPlatform.HandlerCalls
import NotificationPlatform.Roles

/-!
# Link tables and their tenants

A member of a group and a role of a user carry a tenant beside the two keys that they link. The
handlers give the tenant to a new row from the caller or from one of the two linked rows, and look
at the other one only sometimes.
-/

namespace NotificationPlatform

open Lib Lib.Sql

namespace AdminDb

variable {db db' : AdminDb}

/-- Every member belongs to the tenant of its contact; the tenant of its group is part of
`Sound`. -/
def ContactsAgree (db : AdminDb) : Prop := db.LinkedBy "contact_id" .contacts

theorem ContactsAgree.delete {table : AdminTable} {conds : List (String × Value)}
    (h : db.ContactsAgree) :
    AdminDb.ContactsAgree fun u => (db u).filterMap (adminEngine.remaining db table conds u) :=
  LinkedBy.delete h (by simp [adminReferences]) (by decide)

theorem ContactsAgree.update {clock : Value} {args : List Value} {table : AdminTable}
    {sets : Terms Value} {bsets bconds : List (String × Value)} (h : db.ContactsAgree)
    (hbound : adminEngine.bind clock args sets = some bsets) (hplain : Plain sets) :
    AdminDb.ContactsAgree fun u => (db u).filterMap (adminEngine.updated table bsets bconds u) := by
  apply LinkedBy.map h (by decide)
  intro u row _
  refine ⟨_, rfl, fun c hc => ?_⟩
  split
  · exact assign_plain hbound hplain row hc
  · rfl

theorem ContactsAgree.of_tables (h : db.ContactsAgree)
    (hmembers : db' .contactGroupMembers = db .contactGroupMembers)
    (hcontacts : db' .contacts = db .contacts) : db'.ContactsAgree := by
  intro m hm
  rw [hmembers] at hm
  rw [hcontacts]
  exact h m hm

def names (id : String) (row : Row Value) : Prop :=
  ∃ key, Uuid.read id = some key ∧ row "id" = .text key

def MembersMatch (p : Principal) (groupID contactID : String) (db : AdminDb) : Prop :=
  p.isPlatform = true → ∀ g ∈ db .contactGroups, ∀ c ∈ db .contacts,
    names groupID g → names contactID c → c "tenant_id" = g "tenant_id"

theorem ContactsAgree.insertMember {now : Int} {p : Principal} {groupID contactID : String}
    (h : db.ContactsAgree) (hmatch : MembersMatch p groupID contactID db)
    (hinsert : db.insertMember now (memberInsert p groupID contactID).1
      (memberInsert p groupID contactID).2 = some db') : db'.ContactsAgree := by
  obtain ⟨tenant, group, contact, groupConds, contactConds, rows, htenant, -, hcontact, hgroupConds,
    hcontactConds, hrows, rfl⟩ := insertMember_cases hinsert
  obtain ⟨hother, new, hnew, hmem⟩ := addMembers_cases rows db
  have hmembers : ∀ m ∈ rows, ∃ u, m "contact_id" = .text u ∧
      ∃ c ∈ db .contacts, c "id" = .text u ∧ c "tenant_id" = m "tenant_id" := by
    intro m hm
    obtain ⟨g, hg, c, hc, hgselects, hcselects, rfl⟩ := hrows m hm
    unfold memberInsert at htenant hcontact hgroupConds hcontactConds
    split at hgroupConds
    · next hp =>
        rw [if_pos hp] at htenant hcontact hcontactConds
        obtain rfl : none = tenant := Option.some.inj htenant
        have hcontact' : readColumn "contact_id" (.text contactID) = some contact := hcontact
        obtain ⟨u, hu, rfl⟩ := read_text (by decide) hcontact'
        obtain ⟨u', hu', hid⟩ := selected_text hcontactConds hcselects (by decide)
          (List.mem_cons_self) (s := contactID) rfl
        obtain rfl := Option.some.inj (hu.symm.trans hu')
        have hgroup := selected_text hgroupConds hgselects (by decide)
          (List.mem_cons_self) (s := groupID) rfl
        exact ⟨u, rfl, c, hc, hid, hmatch hp g hg c hc hgroup ⟨u, hu, hid⟩⟩
    · next hp =>
        rw [if_neg hp] at htenant hcontact hcontactConds
        obtain ⟨v, hv, rfl⟩ := Option.map_eq_some_iff.mp htenant
        have hcontact' : readColumn "contact_id" (.text contactID) = some contact := hcontact
        have htenant' : readColumn "tenant_id" (.text p.tenantID) = some v := hv
        obtain ⟨u, hu, rfl⟩ := read_text (by decide) hcontact'
        obtain ⟨t, ht, rfl⟩ := read_text (by decide) htenant'
        obtain ⟨u', hu', hid⟩ := selected_text hcontactConds hcselects (by decide)
          (List.mem_cons_self) (s := contactID) rfl
        obtain rfl := Option.some.inj (hu.symm.trans hu')
        obtain ⟨t', ht', howner⟩ := selected_text hcontactConds hcselects (by decide)
          (List.mem_cons_of_mem _ List.mem_cons_self) (s := p.tenantID) rfl
        obtain rfl := Option.some.inj (ht.symm.trans ht')
        exact ⟨u, rfl, c, hc, hid, howner⟩
  intro m hm
  rw [hother _ (by decide)]
  rw [hnew] at hm
  rcases List.mem_append.mp hm with hm | hm
  · exact h m hm
  · exact hmembers m (hmem m hm)

end AdminDb

namespace AuthDb

variable {db db' : AuthDb}

/-- A user has a role without a tenant, or one of the tenant of the assignment. -/
def RolesAgree (db : AuthDb) : Prop :=
  ∀ ur ∈ db.userRoles.rows, ∃ role, db.roles.get? ur.2.roleID = some role ∧
    (role.tenantID = none ∨ role.tenantID = ur.2.tenantID)

def assignedTenant (p : Principal) (tenantID : String) : Option String :=
  let tenantID := if p.isPlatform then tenantID else p.tenantID
  if tenantID = "" then none else some tenantID

/-- The role of an assignment that is not refused has no tenant, or that of the assignment. -/
def RolesMatch (p : Principal) (env : RoleEnv) (db : AuthDb) : RoleRequest → Prop
  | .assignUserRole userID tenantID roleID =>
      ¬(p.isPlatform = false ∧ (db.existing env roleID).1 = "platform") →
      ¬((db.existing env roleID).1 = "tenant" ∧ assignedTenant p tenantID = none) →
      env.fails .write = false →
      (db.insertUserRole env.newID ⟨assignedTenant p tenantID, userID, roleID⟩).isSome = true →
        ∀ role, db.roles.get? roleID = some role →
          role.tenantID = none ∨ role.tenantID = assignedTenant p tenantID
  | _ => True

theorem RolesAgree.of_roles {roles : Table Role} (h : db.RolesAgree)
    (hroles : ∀ id role, db.roles.get? id = some role →
      ∃ role', roles.get? id = some role' ∧ role'.tenantID = role.tenantID) :
    RolesAgree { db with roles := roles } := by
  intro ur hur
  obtain ⟨role, hrole, htenant⟩ := h ur hur
  obtain ⟨role', hrole', hsame⟩ := hroles _ role hrole
  refine ⟨role', hrole', ?_⟩
  rw [hsame]
  exact htenant

theorem RolesAgree.dropRole (h : db.RolesAgree) (id : Nat) : (db.dropRole id).RolesAgree := by
  intro ur hur
  obtain ⟨hmem, hother⟩ := List.mem_filter.mp hur
  obtain ⟨role, hrole, htenant⟩ := h ur hmem
  exact ⟨role, Table.get?_filter_of_pos hrole hother, htenant⟩

theorem RolesAgree.insertRole (h : db.RolesAgree) {fails : Bool} {id : Nat} {role : Role}
    (hinsert : (if fails then none else db.insertRole id role) = some db') : db'.RolesAgree := by
  split at hinsert
  · simp at hinsert
  · unfold AuthDb.insertRole at hinsert
    split at hinsert
    · obtain rfl := Option.some.inj hinsert
      exact h.of_roles fun _ role hget => ⟨role, Table.get?_insert_of_some hget, rfl⟩
    · simp at hinsert

theorem RolesAgree.insertUserRole (h : db.RolesAgree) {id : Nat} {row : UserRole}
    (hinsert : db.insertUserRole id row = some db')
    (hrow : ∀ role, db.roles.get? row.roleID = some role →
      role.tenantID = none ∨ role.tenantID = row.tenantID) : db'.RolesAgree := by
  obtain ⟨hrole, hfree, rfl⟩ := AuthDb.insertUserRole_eq_some hinsert
  intro ur hur
  dsimp only at hur
  rw [Table.rows_insert hfree] at hur
  rcases List.mem_append.mp hur with hold | hnew
  · exact h ur hold
  · obtain rfl := List.mem_singleton.mp hnew
    obtain ⟨role, hget⟩ := Option.isSome_iff_exists.mp hrole
    exact ⟨role, hget, hrow role hget⟩

theorem RolesAgree.createRole (h : db.RolesAgree) (p : Principal) (env : RoleEnv)
    (tenantID name key scope : String) :
    (Roles.createRole p env tenantID name key scope db).2.RolesAgree := by
  unfold Roles.createRole
  dsimp only
  split
  · exact h
  generalize (if scope = "" then "tenant" else scope) = scope
  generalize (if p.isPlatform then tenantID else p.tenantID) = tenantID
  split
  · exact h
  split
  · exact h
  split
  · exact h
  generalize hinsert : (if env.fails .write then none else _ : Option AuthDb) = inserted
  cases inserted with
  | none => exact h
  | some db' => exact h.insertRole hinsert

theorem RolesAgree.setRolePermissions (h : db.RolesAgree) (p : Principal) (env : RoleEnv)
    (roleID : Nat) (permissionIDs : List Nat) :
    (Roles.setRolePermissions p env roleID permissionIDs db).2.RolesAgree := by
  unfold Roles.setRolePermissions
  split
  · exact h
  split
  · exact h
  split
  · exact h
  dsimp only
  split
  · exact h
  · next hinsert =>
      split
      · exact h
      · obtain ⟨rps, rfl, -⟩ := insertPermissions_cases hinsert
        exact h

theorem RolesAgree.assignUserRole (h : db.RolesAgree) {p : Principal} {env : RoleEnv} {userID : Nat}
    {tenantID : String} {roleID : Nat}
    (hmatch : RolesMatch p env db (.assignUserRole userID tenantID roleID)) :
    (Roles.assignUserRole p env userID tenantID roleID db).2.RolesAgree := by
  unfold Roles.assignUserRole
  unfold RolesMatch assignedTenant at hmatch
  dsimp only at hmatch ⊢
  generalize (if p.isPlatform then tenantID else p.tenantID) = tenantID at hmatch ⊢
  split
  · exact h
  · next hscope =>
      split
      · exact h
      · next htenant =>
          cases hwrite : env.fails .write with
          | true => exact h
          | false =>
              simp only [Bool.false_eq_true, if_false]
              cases hinsert : db.insertUserRole env.newID
                  ⟨if tenantID = "" then none else some tenantID, userID, roleID⟩ with
              | none => exact h
              | some db' =>
                  apply h.insertUserRole hinsert
                  apply hmatch _ _ hwrite (by simp [hinsert])
                  · simpa using hscope
                  · simpa using htenant

theorem RolesAgree.serve (h : db.RolesAgree) {p : Principal} {env : RoleEnv} {req : RoleRequest}
    (hmatch : RolesMatch p env db req) : (Roles.serve p env db req).2.RolesAgree := by
  unfold Roles.serve
  split
  · cases req with
    | createRole tenantID name key scope => exact h.createRole p env tenantID name key scope
    | updateRole id name status scope =>
        dsimp only [Roles.handle]
        unfold Roles.updateRole
        split
        · exact h
        split
        · exact h
        split
        · exact h
        apply h.of_roles
        intro other role hget
        rw [Table.get?_modify, hget]
        split <;> exact ⟨_, rfl, rfl⟩
    | deleteRole id =>
        dsimp only [Roles.handle]
        unfold Roles.deleteRole
        repeat' split
        all_goals try exact h
        exact h.dropRole id
    | setRolePermissions roleID permissionIDs => exact h.setRolePermissions p env roleID permissionIDs
    | assignRolePermission roleID permissionID =>
        dsimp only [Roles.handle]
        unfold Roles.assignRolePermission
        split
        · exact h
        · next hinsert =>
            split at hinsert
            · simp at hinsert
            · obtain ⟨-, -, rfl | ⟨-, rfl⟩⟩ := insertRolePermission_cases hinsert <;> exact h
    | removeRolePermission roleID permissionID =>
        dsimp only [Roles.handle]
        unfold Roles.removeRolePermission
        split <;> exact h
    | assignUserRole userID tenantID roleID => exact h.assignUserRole hmatch
    | removeUserRole userID roleID =>
        dsimp only [Roles.handle]
        unfold Roles.removeUserRole
        repeat' split
        all_goals try exact h
        intro ur hur
        exact h ur (List.mem_of_mem_filter hur)
  · exact h

end AuthDb

inductive ContactRequest where
  | createContact (req : NewContact)
  | updateContact (id : String) (req : ContactUpdate)
  | deleteContact (id : String)
  | createGroup (req : NewGroup)
  | deleteGroup (id : String)
  | addGroupMember (groupID contactID : String)
  | removeGroupMember (groupID contactID : String)

def ContactRequest.toAdmin : ContactRequest → AdminRequest
  | .createContact req => .createContact req
  | .updateContact id req => .updateContact id req
  | .deleteContact id => .deleteContact id
  | .createGroup req => .createGroup req
  | .deleteGroup id => .deleteGroup id
  | .addGroupMember groupID contactID => .addGroupMember groupID contactID
  | .removeGroupMember groupID contactID => .removeGroupMember groupID contactID

/-- A new member is one whose contact is of the tenant of the group. -/
def ContactRequest.Matches (p : Principal) (db : AdminDb) : ContactRequest → Prop
  | .addGroupMember groupID contactID => db.MembersMatch p groupID contactID
  | _ => True

section

variable {cfg : AdminConfig} {env : Nat → AdminOutcome} {p : Principal} {s : AdminState}

theorem agree_after_exec (h : s.db.ContactsAgree) {st : Sql.Stmt AdminTable Value}
    (hplain : plainStmt st) (args : List Value) :
    (s.call env (.exec st args)).2.db.ContactsAgree := by
  rcases call_cases env (.exec st args) s with ⟨e, heq⟩ | ⟨n, db', -, hperform, heq⟩
  · rw [heq]
    exact h
  · rw [heq]
    rcases adminEngine.exec_cases (exec_of_perform hperform) with
      ⟨_, _, _, _, _, rfl, hsets, -, rfl⟩ | ⟨_, _, _, rfl, -, rfl⟩
    · exact h.update hsets hplain
    · exact h.delete

theorem agree_after_audit (h : s.db.ContactsAgree) (event : AuditEvent) :
    (s.call env (.audit event)).2.db.ContactsAgree :=
  h.of_tables (audit_frame event (by decide)) (audit_frame event (by decide))

theorem agree_after_write (h : s.db.ContactsAgree) {st : Sql.Stmt AdminTable Value}
    (hplain : plainStmt st) (args : List Value) (failed missing : String) (event : AuditEvent)
    (done : String) :
    ((write st args >>= fun r => answerAffected r failed missing event done).eval
      (AdminState.call env) s).2.db.ContactsAgree := by
  rw [Prog.eval_bind]
  have hwrite := @agree_after_exec env s h st hplain args
  exact hwrite.of_tables (answerAffected_frame _ _ _ _ _ (by decide))
    (answerAffected_frame _ _ _ _ _ (by decide))

theorem agree_after_insert (h : s.db.ContactsAgree) {table : AdminTable}
    (htable : table ≠ .contactGroupMembers) (values : Terms Value) (args : List Value)
    (failed : Err → JsonResponse) (event : String → AuditEvent) (done : String) :
    ((insertRow table values args >>= fun r => answerCreated r failed event done).eval
      (AdminState.call env) s).2.db.ContactsAgree := by
  rw [Prog.eval_bind]
  have hinsert : (s.call env (.insert table values args)).2.db.ContactsAgree := by
    rcases call_cases env (.insert table values args) s with ⟨e, heq⟩ | ⟨id, db', -, hperform, heq⟩
    · rw [heq]
      exact h
    · rw [heq]
      obtain ⟨bound, -, -, hrow⟩ := perform_insert hperform
      exact AdminDb.LinkedBy.insert h hrow htable
  exact hinsert.of_tables (answerCreated_frame _ _ _ _ (by decide))
    (answerCreated_frame _ _ _ _ (by decide))

theorem addGroupMember_agrees (h : s.db.ContactsAgree) {groupID contactID : String}
    (hmatch : s.db.MembersMatch p groupID contactID) :
    ((addGroupMember p groupID contactID).eval (AdminState.call env) s).2.db.ContactsAgree := by
  unfold addGroupMember
  dsimp only
  rw [Prog.perform_bind, Prog.eval_call]
  rcases call_cases env (.insertMember (memberInsert p groupID contactID).1
    (memberInsert p groupID contactID).2) s with ⟨e, heq⟩ | ⟨_, db', -, hperform, heq⟩
  · rw [heq]
    exact h
  · rw [heq]
    apply agree_after_audit
    simp only [AdminDb.perform] at hperform
    split at hperform
    · next db'' hinsert =>
        obtain ⟨-, rfl⟩ := Prod.mk.inj (Except.ok.inj hperform)
        exact h.insertMember hmatch hinsert
    · simp at hperform

theorem removeGroupMember_agrees (h : s.db.ContactsAgree) (groupID contactID : String) :
    ((removeGroupMember p groupID contactID).eval (AdminState.call env) s).2.db.ContactsAgree := by
  unfold removeGroupMember
  rw [Prog.eval_bind]
  have hdelete : ∀ (conds : Sql.Terms Value) (args : List Value),
      (s.call env (.exec (.delete .contactGroupMembers conds) args)).2.db.ContactsAgree := by
    intro conds args
    have hplain : plainStmt (.delete .contactGroupMembers conds) := trivial
    exact agree_after_exec h hplain args
  split
  · exact hdelete _ _
  · exact agree_after_audit (hdelete _ _) _

theorem serve_agrees (h : s.db.ContactsAgree) {r : ContactRequest}
    (hmatch : r.Matches p s.db) :
    ((serve cfg p r.toAdmin).eval (AdminState.call env) s).2.db.ContactsAgree := by
  cases r with
  | createContact req => exact agree_after_insert h (by decide) _ _ _ _ _
  | updateContact id req =>
      have hbuilt := ((Builder.numbered_start.setText "name" (by decide) req.name).setText "email"
        (by decide) req.email).setText "phone" (by decide) req.phone
      apply agree_after_write h
      exact hbuilt.limited_plain p id
  | deleteContact id =>
      apply agree_after_write h
      exact trivial
  | createGroup req =>
      dsimp only [ContactRequest.toAdmin, serve]
      unfold createGroup
      dsimp only
      split
      · exact h
      · exact agree_after_insert h (by decide) _ _ _ _ _
  | deleteGroup id =>
      apply agree_after_write h
      exact trivial
  | addGroupMember groupID contactID => exact addGroupMember_agrees h hmatch
  | removeGroupMember groupID contactID => exact removeGroupMember_agrees h groupID contactID

end

structure LinkWorld where
  admin : AdminState
  auth : AuthDb

/-- A request of a principal, with what the environment decides. -/
inductive LinkEvent where
  | contact (env : Nat → AdminOutcome) (p : Principal) (r : ContactRequest)
  | role (env : RoleEnv) (p : Principal) (r : RoleRequest)

namespace LinkWorld

def step (cfg : AdminConfig) (w : LinkWorld) : LinkEvent → LinkWorld
  | .contact env p r =>
      { w with admin := ((serve cfg p r.toAdmin).eval (AdminState.call env) w.admin).2 }
  | .role env p r => { w with auth := (Roles.serve p env w.auth r).2 }

def Matches (w : LinkWorld) : LinkEvent → Prop
  | .contact _ p r => r.Matches p w.admin.db
  | .role env p r => w.auth.RolesMatch p env r

/-- Keys are distinct, and every link has its two rows, of its own tenant. -/
structure Linked (w : LinkWorld) : Prop where
  sound : w.admin.db.Sound
  contacts : w.admin.db.ContactsAgree
  roles : w.auth.RolesAgree

structure OneTenant (w : LinkWorld) : Prop where
  groups : ∀ m ∈ w.admin.db .contactGroupMembers, ∀ g ∈ w.admin.db .contactGroups,
    (g "id").same (m "group_id") = true → g "tenant_id" = m "tenant_id"
  contacts : ∀ m ∈ w.admin.db .contactGroupMembers, ∀ c ∈ w.admin.db .contacts,
    (c "id").same (m "contact_id") = true → c "tenant_id" = m "tenant_id"
  roles : ∀ ur ∈ w.auth.userRoles.rows, ∀ role, w.auth.roles.get? ur.2.roleID = some role →
    role.tenantID = none ∨ role.tenantID = ur.2.tenantID

/-- A run of requests, each admitted by `ok` where it is made. -/
def RunOf (cfg : AdminConfig) (ok : LinkWorld → LinkEvent → Prop) (w : LinkWorld)
    (es : List LinkEvent) (w' : LinkWorld) : Prop :=
  Run (fun w e => some (w.step cfg e)) ok w es w'

variable {cfg : AdminConfig} {w w' : LinkWorld}

theorem Linked.step (h : w.Linked) {e : LinkEvent} (hmatch : w.Matches e) :
    (w.step cfg e).Linked := by
  cases e with
  | contact env p r =>
      exact ⟨(serve_harmless cfg env p r.toAdmin h.sound).1, serve_agrees h.contacts hmatch,
        h.roles⟩
  | role env p r => exact ⟨h.sound, h.contacts, h.roles.serve hmatch⟩

theorem Linked.oneTenant (h : w.Linked) : w.OneTenant where
  groups := by
    intro m hm g hg hid
    obtain ⟨u, hgroup, g', hg', hid', htenant⟩ := h.sound.members m hm
    have hkey : g "id" = .text u := (Value.eq_of_same hid).trans hgroup
    obtain rfl := h.sound.row_unique hg hg' hkey hid'
    exact htenant
  contacts := by
    intro m hm c hc hid
    obtain ⟨u, hcontact, c', hc', hid', htenant⟩ := h.contacts m hm
    have hkey : c "id" = .text u := (Value.eq_of_same hid).trans hcontact
    obtain rfl := h.sound.row_unique hc hc' hkey hid'
    exact htenant
  roles := by
    intro ur hur role hrole
    obtain ⟨role', hrole', htenant⟩ := h.roles ur hur
    obtain rfl := Option.some.inj (hrole.symm.trans hrole')
    exact htenant

/-- Requests whose new links are within a tenant never make a link that crosses tenants. -/
theorem links_within_tenant (h : w.Linked) {es : List LinkEvent}
    (hrun : w.RunOf cfg Matches es w') : w'.OneTenant := by
  have hlinked : w'.Linked := by
    apply Run.invariant hrun ?_ h
    intro w e w' hw hmatch hstep
    cases hstep
    exact hw.step hmatch
  exact hlinked.oneTenant

def annID : String := "aaaaaaaa-0000-0000-0000-000000000000"

def vipID : String := "cccccccc-0000-0000-0000-000000000000"

def sampleLinks : LinkWorld where
  admin :=
    ⟨fun
      | .contactGroups =>
          [rowOf [("id", .text vipID), ("tenant_id", .text firstTenant), ("name", .text "VIP"),
            ("description", .text ""), ("status", .text "active")]]
      | u => sampleContacts u, 0⟩
  auth :=
    { tenants := [firstTenant, secondTenant]
      users := [7]
      permissions := Table.empty
      roles := Table.empty.insert 0 ⟨some secondTenant, "Owner", "owner", "tenant", "active"⟩
      rolePermissions := []
      userRoles := Table.empty
      userPermissions := [] }

theorem sampleLinks_linked : sampleLinks.Linked where
  sound := by
    refine ⟨?_, ?_, ?_⟩
    · intro table
      cases table <;> first
        | exact List.Pairwise.nil
        | exact List.pairwise_singleton _ _
        | exact sampleContacts_reachable.sound.ids .contacts
    · intro row hrow
      cases hrow
    · intro m hm
      cases hm
  contacts := by
    intro m hm
    cases hm
  roles := by
    intro ur hur
    cases hur

def addAnn : LinkEvent := .contact (fun _ => {}) ⟨1, "", true, []⟩ (.addGroupMember vipID annID)

theorem addAnn_matches : sampleLinks.Matches addAnn := by
  intro _ g hg c hc _ hcontact
  obtain rfl := List.mem_singleton.mp hg
  obtain ⟨key, hkey, hid⟩ := hcontact
  have hread : Uuid.read annID = some annID := by decide
  obtain rfl := Option.some.inj (hread.symm.trans hkey)
  rcases List.mem_cons.mp hc with rfl | hc
  · rfl
  · obtain rfl := List.mem_singleton.mp hc
    have hbob : Value.text "bbbbbbbb-0000-0000-0000-000000000000" = .text annID := hid
    simp [annID] at hbob

theorem addAnn_within_tenant : (sampleLinks.step sampleAdminConfig addAnn).OneTenant :=
  links_within_tenant sampleLinks_linked (.cons addAnn_matches rfl (.nil _))

def takeRole : LinkEvent :=
  .role ⟨fun _ => false, "", 0⟩ ⟨8, firstTenant, false, ["roles.manage"]⟩ (.assignUserRole 7 "" 0)

theorem role_crosses_tenants : ¬∀ (cfg : AdminConfig) (w w' : LinkWorld) (es : List LinkEvent),
    w.Linked → w.RunOf cfg (fun _ _ => True) es w' → w'.OneTenant := by
  intro h
  have hrun : sampleLinks.RunOf sampleAdminConfig (fun _ _ => True) [takeRole]
      (sampleLinks.step sampleAdminConfig takeRole) :=
    .cons trivial rfl (.nil _)
  have hone := h sampleAdminConfig sampleLinks _ [takeRole] sampleLinks_linked hrun
  have hassigned : (sampleLinks.step sampleAdminConfig takeRole).auth.userRoles.rows =
      [(0, ⟨some firstTenant, 7, 0⟩)] := rfl
  have hrole := hone.roles (0, ⟨some firstTenant, 7, 0⟩) (by rw [hassigned]; simp)
    ⟨some secondTenant, "Owner", "owner", "tenant", "active"⟩ rfl
  revert hrole
  decide

end LinkWorld

end NotificationPlatform
