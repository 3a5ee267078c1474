import NotificationPlatform.Lib.Program
import NotificationPlatform.Lib.ReadCommitted
import NotificationPlatform.Roles

/-!
# Concurrent changes of a role's permissions

`SetRolePermissions` deletes the permissions of a role and inserts those of its request, in one
transaction. Any number of such requests run side by side here: statement after statement in any
order, and within a deletion row after row. A deletion does not find what another transaction has
yet to commit, so that overlapping requests leave the permissions of both. While no deletion starts
when another request has begun to change the role, the last one to commit decides.
-/

namespace NotificationPlatform

open Lib Lib.ReadCommitted

inductive PermissionStmt where
  | lookup (roleID : Nat)
  | begin
  | clear (roleID : Nat)
  | insert (roleID permissionID : Nat)
  | commit
  | rollback

abbrev PermissionReply : PermissionStmt → Type
  | .lookup _ => String × String
  | _ => Bool

abbrev PermissionCode := Prog PermissionStmt PermissionReply

namespace PermissionCode

open Prog

def rollBack (r : Response) : PermissionCode Response := do
  let _ ← perform .rollback
  pure r

def insertAll (roleID : Nat) : List Nat → PermissionCode Bool
  | [] => pure true
  | permissionID :: rest => do
      if ← perform (.insert roleID permissionID) then insertAll roleID rest else pure false

def conclude (inserted : Bool) : PermissionCode Response :=
  if inserted then do
    if ← perform .commit then pure (.message 200 "permissions updated")
    else rollBack (.error 500 "tx commit failed")
  else rollBack (.error 500 "assign failed")

def replacePermissions (roleID : Nat) (permissionIDs : List Nat) : PermissionCode Response := do
  if ← perform (.clear roleID) then
    let inserted ← insertAll roleID permissionIDs
    conclude inserted
  else rollBack (.error 500 "clear failed")

def beginReplacement (roleID : Nat) (permissionIDs : List Nat) : PermissionCode Response := do
  if ← perform .begin then replacePermissions roleID permissionIDs
  else pure (.error 500 "tx begin failed")

def setRolePermissions (p : Principal) (roleID : Nat) (permissionIDs : List Nat) :
    PermissionCode Response := do
  let existing ← perform (.lookup roleID)
  if Roles.guarded p existing then pure (.error 403 "cannot modify this role permissions")
  else beginReplacement roleID permissionIDs

end PermissionCode

/-- A request that is being served, the rows that its running deletion has still to come to, and
the rest of its code. -/
structure RoleCall where
  principal : Principal
  roleID : Nat
  permissionIDs : List Nat
  scan : Option (List Nat)
  prog : PermissionCode Response

namespace RoleCall

def start (p : Principal) (roleID : Nat) (permissionIDs : List Nat) : RoleCall :=
  ⟨p, roleID, permissionIDs, none, PermissionCode.setRolePermissions p roleID permissionIDs⟩

def request (c : RoleCall) : Nat × List Nat := (c.roleID, c.permissionIDs)

def starts (c : RoleCall) : Bool :=
  match c.prog.next? with
  | some (.clear _) => c.scan.isNone
  | _ => false

def changing (c : RoleCall) : Bool :=
  match c.prog.next? with
  | some (.clear _) => c.scan.isSome
  | some (.insert _ _) | some .commit => true
  | _ => false

/-- The request has been answered with success: its transaction has committed. -/
def answered (c : RoleCall) : Bool :=
  match c.prog with
  | .ret r => r.status == 200
  | .call _ _ => false

end RoleCall

/-- What becomes of a statement: it has rows left to delete, or it returns. -/
inductive Progress (s : PermissionStmt) where
  | scanning (todo : List Nat)
  | done (r : PermissionReply s)

def RoleCall.advance (c : RoleCall) {s : PermissionStmt}
    (k : PermissionReply s → PermissionCode Response) : Progress s → RoleCall
  | .scanning todo => { c with scan := some todo }
  | .done reply => { c with scan := none, prog := k reply }

/-- The rows of `role_permissions` with their versions, the other tables, and the requests. The
transaction of a request is known by its position. -/
structure RoleWorld where
  db : AuthDb
  store : Store RolePermission Nat
  calls : List RoleCall

namespace RoleWorld

def tables (w : RoleWorld) : AuthDb := { w.db with rolePermissions := w.store.live }

/-- One move of a statement; it waits when there is none. A statement may fail at any time, as
when it is chosen to end a deadlock. -/
def exec (w : RoleWorld) (t : Nat) (scan : Option (List Nat)) (fails : Bool) :
    (s : PermissionStmt) → Option (Progress s × Store RolePermission Nat)
  | .lookup roleID => some (.done (w.db.existing ⟨fun _ => fails, "", 0⟩ roleID), w.store)
  | .begin => some (.done !fails, w.store)
  | .clear roleID =>
      if fails then some (.done false, w.store)
      else
        match scan with
        | none => some (.scanning (w.store.targets t fun row => row.roleID == roleID), w.store)
        | some [] => some (.done true, w.store)
        | some (i :: todo) => (w.store.mark t i).map fun st => (.scanning todo, st)
  | .insert roleID permissionID =>
      if !fails && (w.db.roles.get? roleID).isSome && (w.db.permissions.get? permissionID).isSome
      then (w.store.insert t ⟨roleID, permissionID⟩).map fun st => (.done true, st)
      else some (.done false, w.store)
  | .commit =>
      if fails then some (.done false, w.store.finish t .aborted)
      else some (.done true, w.store.finish t .committed)
  | .rollback => some (.done true, w.store.finish t .aborted)

def step (w : RoleWorld) (e : Nat × Bool) : Option RoleWorld :=
  match w.calls[e.1]? with
  | some c =>
      match c.prog with
      | .call s k =>
          (w.exec e.1 c.scan e.2 s).map fun r =>
            ⟨w.db, r.2, w.calls.set e.1 (c.advance k r.1)⟩
      | .ret _ => none
  | none => none

/-- A deletion of the permissions of role `r` starts only while no other request has begun to
change them and is yet to commit. -/
def Alone (r : Nat) (w : RoleWorld) (e : Nat × Bool) : Prop :=
  ∀ c ∈ w.calls[e.1]?, c.roleID = r → c.starts = true →
    ∀ other ∈ w.calls, other.roleID = r → other.changing = false

instance (r : Nat) (w : RoleWorld) (e : Nat × Bool) : Decidable (w.Alone r e) :=
  inferInstanceAs (Decidable (∀ c ∈ w.calls[e.1]?, c.roleID = r → c.starts = true →
    ∀ other ∈ w.calls, other.roleID = r → other.changing = false))

/-- Some rows, and requests that are all at their start. -/
def AtStart (w : RoleWorld) : Prop :=
  (∃ rows, w.store = Store.load rows) ∧
    ∀ c ∈ w.calls, c = RoleCall.start c.principal c.roleID c.permissionIDs

end RoleWorld

/-- The tables of a request that nobody else runs beside: as committed, and inside its
transaction after a number of insertions. -/
structure PermissionTx where
  committed : AuthDb
  working : AuthDb
  inserted : Nat

def PermissionTx.exec (env : RoleEnv) :
    (s : PermissionStmt) → PermissionTx → PermissionReply s × PermissionTx
  | .lookup roleID, d => (d.committed.existing env roleID, d)
  | .begin, d => (!env.fails .begin, d)
  | .clear roleID, d =>
      if env.fails .clear then (false, d)
      else (true, { d with working := { d.working with
        rolePermissions := d.working.rolePermissions.filter fun rp => rp.roleID != roleID } })
  | .insert roleID permissionID, d =>
      if env.fails (.insert d.inserted) then (false, d)
      else
        match d.working.insertRolePermission roleID permissionID with
        | none => (false, d)
        | some db => (true, ⟨d.committed, db, d.inserted + 1⟩)
  | .commit, d =>
      if env.fails .commit then (false, d) else (true, { d with committed := d.working })
  | .rollback, d => (true, { d with working := d.committed })

namespace RoleCall

inductive Stage where
  | waiting
  | clearing (todo : List Nat)
  | inserting (todo : List Nat)
  | failing
  | committed
  | ended

def At (c : RoleCall) : Stage → Prop
  | .waiting => c.scan = none ∧
      (c.prog = PermissionCode.setRolePermissions c.principal c.roleID c.permissionIDs ∨
        c.prog = PermissionCode.beginReplacement c.roleID c.permissionIDs ∨
        c.prog = PermissionCode.replacePermissions c.roleID c.permissionIDs)
  | .clearing todo => c.scan = some todo ∧
      c.prog = PermissionCode.replacePermissions c.roleID c.permissionIDs
  | .inserting todo => c.scan = none ∧
      c.prog = (PermissionCode.insertAll c.roleID todo >>= PermissionCode.conclude)
  | .failing => c.scan = none ∧ ∃ r, r.status ≠ 200 ∧ c.prog = PermissionCode.rollBack r
  | .committed => c.prog = .ret (.message 200 "permissions updated")
  | .ended => ∃ r, r.status ≠ 200 ∧ c.prog = .ret r

inductive Moves (t : Nat) (c : RoleCall) :
    Stage → Store RolePermission Nat → Stage → Store RolePermission Nat → Prop
  | wait (st : Store RolePermission Nat) : Moves t c .waiting st .waiting st
  | refuse (st : Store RolePermission Nat) : Moves t c .waiting st .ended st
  | start (st : Store RolePermission Nat) (hstarts : c.starts = true) :
      Moves t c .waiting st (.clearing (st.targets t fun row => row.roleID == c.roleID)) st
  | mark {i : Nat} {todo : List Nat} {st st' : Store RolePermission Nat}
      (hmark : st.mark t i = some st') : Moves t c (.clearing (i :: todo)) st (.clearing todo) st'
  | cleared (st : Store RolePermission Nat) :
      Moves t c (.clearing []) st (.inserting c.permissionIDs) st
  | insert {permissionID : Nat} {todo : List Nat} {st st' : Store RolePermission Nat}
      (hinsert : st.insert t ⟨c.roleID, permissionID⟩ = some st') :
      Moves t c (.inserting (permissionID :: todo)) st (.inserting todo) st'
  | commit (st : Store RolePermission Nat) :
      Moves t c (.inserting []) st .committed (st.finish t .committed)
  | fail {stage : Stage} (st : Store RolePermission Nat) (hcommitted : stage ≠ .committed)
      (hended : stage ≠ .ended) : Moves t c stage st .failing st
  | refuseCommit (st : Store RolePermission Nat) :
      Moves t c (.inserting []) st .failing (st.finish t .aborted)
  | rollback (st : Store RolePermission Nat) : Moves t c .failing st .ended (st.finish t .aborted)

def Stage.changing : Stage → Bool
  | .clearing _ | .inserting _ => true
  | _ => false

variable {c : RoleCall} {stage : Stage}

theorem At.changing (h : c.At stage) : c.changing = stage.changing := by
  cases stage with
  | waiting =>
      obtain ⟨hscan, hprog | hprog | hprog⟩ := h
      · simp [RoleCall.changing, hprog, PermissionCode.setRolePermissions, Prog.next?,
          Stage.changing]
      · simp [RoleCall.changing, hprog, PermissionCode.beginReplacement, Prog.next?,
          Stage.changing]
      · simp [RoleCall.changing, hprog, hscan, PermissionCode.replacePermissions, Prog.next?,
          Stage.changing]
  | clearing todo =>
      obtain ⟨hscan, hprog⟩ := h
      simp [RoleCall.changing, hprog, hscan, PermissionCode.replacePermissions, Prog.next?,
        Stage.changing]
  | inserting todo =>
      obtain ⟨-, hprog⟩ := h
      cases todo with
      | nil =>
          simp [RoleCall.changing, hprog, PermissionCode.insertAll, PermissionCode.conclude,
            Prog.next?, Stage.changing]
      | cons permissionID rest =>
          simp [RoleCall.changing, hprog, PermissionCode.insertAll, Prog.next?, Stage.changing]
  | failing =>
      obtain ⟨-, r, -, hprog⟩ := h
      simp [RoleCall.changing, hprog, PermissionCode.rollBack, Prog.next?, Stage.changing]
  | committed =>
      simp [RoleCall.changing, show c.prog = _ from h, Prog.next?, Stage.changing]
  | ended =>
      obtain ⟨r, -, hprog⟩ := h
      simp [RoleCall.changing, hprog, Prog.next?, Stage.changing]

theorem At.answered (h : c.At stage) : c.answered = true ↔ stage = .committed := by
  cases stage with
  | waiting =>
      obtain ⟨-, hprog | hprog | hprog⟩ := h
      · simp [RoleCall.answered, hprog, PermissionCode.setRolePermissions]
      · simp [RoleCall.answered, hprog, PermissionCode.beginReplacement]
      · simp [RoleCall.answered, hprog, PermissionCode.replacePermissions]
  | clearing todo =>
      obtain ⟨-, hprog⟩ := h
      simp [RoleCall.answered, hprog, PermissionCode.replacePermissions]
  | inserting todo =>
      obtain ⟨-, hprog⟩ := h
      cases todo with
      | nil => simp [RoleCall.answered, hprog, PermissionCode.insertAll, PermissionCode.conclude]
      | cons permissionID rest => simp [RoleCall.answered, hprog, PermissionCode.insertAll]
  | failing =>
      obtain ⟨-, r, -, hprog⟩ := h
      simp [RoleCall.answered, hprog, PermissionCode.rollBack]
  | committed =>
      simp [RoleCall.answered, show c.prog = _ from h, Response.message]
  | ended =>
      obtain ⟨r, hr, hprog⟩ := h
      simp [RoleCall.answered, hprog, hr]

end RoleCall

section

variable {w w' : RoleWorld} {t : Nat} {c : RoleCall} {stage : RoleCall.Stage} {fails : Bool}
  {s : PermissionStmt} {k : PermissionReply s → PermissionCode Response} {progress : Progress s}
  {st' : Store RolePermission Nat}

private theorem moves_of_waiting (hat : c.At .waiting) (hprog : c.prog = .call s k)
    (hexec : w.exec t c.scan fails s = some (progress, st')) :
    ∃ stage', (c.advance k progress).At stage' ∧ c.Moves t .waiting w.store stage' st' := by
  obtain ⟨hscan, hstart | hbegin | hreplace⟩ := hat
  · obtain ⟨rfl, hk⟩ := Prog.call.inj (hprog.symm.trans hstart)
    obtain rfl := eq_of_heq hk
    obtain ⟨rfl, rfl⟩ := Prod.mk.inj (Option.some.inj hexec)
    by_cases hguard : Roles.guarded c.principal
        (w.db.existing ⟨fun _ => fails, "", 0⟩ c.roleID) = true
    · exact ⟨.ended, ⟨.error 403 _, by simp [Response.error], if_pos hguard⟩, .refuse _⟩
    · exact ⟨.waiting, ⟨rfl, .inr (.inl (if_neg hguard))⟩, .wait _⟩
  · obtain ⟨rfl, hk⟩ := Prog.call.inj (hprog.symm.trans hbegin)
    obtain rfl := eq_of_heq hk
    obtain ⟨rfl, rfl⟩ := Prod.mk.inj (Option.some.inj hexec)
    cases fails with
    | true => exact ⟨.ended, ⟨.error 500 _, by simp [Response.error], rfl⟩, .refuse _⟩
    | false => exact ⟨.waiting, ⟨rfl, .inr (.inr rfl)⟩, .wait _⟩
  · obtain ⟨rfl, hk⟩ := Prog.call.inj (hprog.symm.trans hreplace)
    obtain rfl := eq_of_heq hk
    rw [hscan] at hexec
    cases fails with
    | true =>
        obtain ⟨rfl, rfl⟩ := Prod.mk.inj (Option.some.inj hexec)
        exact ⟨.failing, ⟨rfl, _, by simp [Response.error], rfl⟩, .fail _ nofun nofun⟩
    | false =>
        obtain ⟨rfl, rfl⟩ := Prod.mk.inj (Option.some.inj hexec)
        have hstarts : c.starts = true := by
          simp [RoleCall.starts, hreplace, hscan, PermissionCode.replacePermissions, Prog.next?]
        exact ⟨.clearing _, ⟨rfl, hreplace⟩, .start _ hstarts⟩

private theorem moves_of_clearing {todo : List Nat} (hat : c.At (.clearing todo))
    (hprog : c.prog = .call s k) (hexec : w.exec t c.scan fails s = some (progress, st')) :
    ∃ stage', (c.advance k progress).At stage' ∧
      c.Moves t (.clearing todo) w.store stage' st' := by
  obtain ⟨hscan, hreplace⟩ := hat
  obtain ⟨rfl, hk⟩ := Prog.call.inj (hprog.symm.trans hreplace)
  obtain rfl := eq_of_heq hk
  rw [hscan] at hexec
  cases fails with
  | true =>
      obtain ⟨rfl, rfl⟩ := Prod.mk.inj (Option.some.inj hexec)
      exact ⟨.failing, ⟨rfl, _, by simp [Response.error], rfl⟩, .fail _ nofun nofun⟩
  | false =>
      cases todo with
      | nil =>
          obtain ⟨rfl, rfl⟩ := Prod.mk.inj (Option.some.inj hexec)
          exact ⟨.inserting c.permissionIDs, ⟨rfl, rfl⟩, .cleared _⟩
      | cons i rest =>
          obtain ⟨st, hmark, heq⟩ := Option.map_eq_some_iff.mp hexec
          obtain ⟨rfl, rfl⟩ := Prod.mk.inj heq
          exact ⟨.clearing rest, ⟨rfl, hreplace⟩, .mark hmark⟩

private theorem moves_of_inserting {todo : List Nat} (hat : c.At (.inserting todo))
    (hprog : c.prog = .call s k) (hexec : w.exec t c.scan fails s = some (progress, st')) :
    ∃ stage', (c.advance k progress).At stage' ∧
      c.Moves t (.inserting todo) w.store stage' st' := by
  obtain ⟨-, hinsert⟩ := hat
  cases todo with
  | nil =>
      obtain ⟨rfl, hk⟩ := Prog.call.inj (hprog.symm.trans hinsert)
      obtain rfl := eq_of_heq hk
      cases fails with
      | true =>
          obtain ⟨rfl, rfl⟩ := Prod.mk.inj (Option.some.inj hexec)
          exact ⟨.failing, ⟨rfl, _, by simp [Response.error], rfl⟩, .refuseCommit _⟩
      | false =>
          obtain ⟨rfl, rfl⟩ := Prod.mk.inj (Option.some.inj hexec)
          exact ⟨.committed, rfl, .commit _⟩
  | cons permissionID rest =>
      obtain ⟨rfl, hk⟩ := Prog.call.inj (hprog.symm.trans hinsert)
      obtain rfl := eq_of_heq hk
      simp only [RoleWorld.exec] at hexec
      split at hexec
      · obtain ⟨st, hstore, heq⟩ := Option.map_eq_some_iff.mp hexec
        obtain ⟨rfl, rfl⟩ := Prod.mk.inj heq
        exact ⟨.inserting rest, ⟨rfl, rfl⟩, .insert hstore⟩
      · obtain ⟨rfl, rfl⟩ := Prod.mk.inj (Option.some.inj hexec)
        exact ⟨.failing, ⟨rfl, _, by simp [Response.error], rfl⟩, .fail _ nofun nofun⟩

theorem moves_of_exec (hat : c.At stage) (hprog : c.prog = .call s k)
    (hexec : w.exec t c.scan fails s = some (progress, st')) :
    ∃ stage', (c.advance k progress).At stage' ∧ c.Moves t stage w.store stage' st' := by
  cases stage with
  | waiting => exact moves_of_waiting hat hprog hexec
  | clearing todo => exact moves_of_clearing hat hprog hexec
  | inserting todo => exact moves_of_inserting hat hprog hexec
  | failing =>
      obtain ⟨-, r, hr, hroll⟩ := hat
      obtain ⟨rfl, hk⟩ := Prog.call.inj (hprog.symm.trans hroll)
      obtain rfl := eq_of_heq hk
      obtain ⟨rfl, rfl⟩ := Prod.mk.inj (Option.some.inj hexec)
      exact ⟨.ended, ⟨r, hr, rfl⟩, .rollback _⟩
  | committed => simp [show c.prog = _ from hat] at hprog
  | ended =>
      obtain ⟨r, -, hret⟩ := hat
      simp [hret] at hprog

end

theorem RoleWorld.step_cases {w w' : RoleWorld} {e : Nat × Bool} (h : w.step e = some w') :
    ∃ c c' st', w.calls[e.1]? = some c ∧ w' = ⟨w.db, st', w.calls.set e.1 c'⟩ ∧
      c'.request = c.request ∧ ∀ stage, c.At stage →
        ∃ stage', c'.At stage' ∧ c.Moves e.1 stage w.store stage' st' := by
  unfold RoleWorld.step at h
  split at h
  · next c hc =>
      split at h
      · next s k hprog =>
          obtain ⟨⟨progress, st'⟩, hexec, rfl⟩ := Option.map_eq_some_iff.mp h
          refine ⟨c, c.advance k progress, st', hc, rfl, ?_, fun stage hat =>
            moves_of_exec hat hprog hexec⟩
          cases progress with
          | scanning todo => rfl
          | done reply => rfl
      · simp at h
  · simp at h

/-- A request for role `r` that has deleted sees no other rows of the role than those it has yet to
come to; one that inserts sees the rows it has been asked for, but for those it has yet to
insert. -/
def RoleCall.Fits (r t : Nat) (c : RoleCall) (st : Store RolePermission Nat) :
    RoleCall.Stage → Prop
  | .waiting => st.status t = .active
  | .clearing todo => st.status t = .active ∧
      (∀ i ∈ todo, ∃ row, st.keyAt i = some row ∧ row.roleID = c.roleID) ∧
      (c.roleID = r → ∀ i row, st.Sees (some t) i row → row.roleID = r → i ∈ todo)
  | .inserting todo => st.status t = .active ∧ (c.roleID = r → ∀ permissionID,
      permissionID ∈ c.permissionIDs ↔
        (∃ i, st.Sees (some t) i ⟨r, permissionID⟩) ∨ permissionID ∈ todo)
  | .failing => st.status t ≠ .committed
  | .committed | .ended => True

namespace RoleCall

variable {r t : Nat} {c c' : RoleCall} {stage stage' : Stage}
  {st st' : Store RolePermission Nat}

theorem Fits.status_ne (h : c.Fits r t st stage) (hcommitted : stage ≠ .committed)
    (hended : stage ≠ .ended) : st.status t ≠ .committed := by
  cases stage with
  | waiting => simp [show st.status t = .active from h]
  | clearing todo => simp [h.1]
  | inserting todo => simp [h.1]
  | failing => exact h
  | committed => exact absurd rfl hcommitted
  | ended => exact absurd rfl hended

theorem Fits.congr (h : c.Fits r t st stage) (hrequest : c'.request = c.request)
    (hstatus : st'.status t = st.status t)
    (hkey : ∀ i row, st.keyAt i = some row → st'.keyAt i = some row)
    (hsees : c.roleID = r → stage.changing = true → ∀ i row, row.roleID = r →
      (st'.Sees (some t) i row ↔ st.Sees (some t) i row)) : c'.Fits r t st' stage := by
  obtain ⟨hrole, hids⟩ := Prod.mk.inj hrequest
  cases stage with
  | waiting => exact hstatus.trans h
  | clearing todo =>
      obtain ⟨hactive, htodo, hfound⟩ := h
      refine ⟨hstatus.trans hactive, ?_, ?_⟩
      · intro i hi
        obtain ⟨row, hrow, hrole'⟩ := htodo i hi
        exact ⟨row, hkey i row hrow, hrole'.trans hrole.symm⟩
      · intro hr i row hrow hrow'
        have hc : c.roleID = r := hrole.symm.trans hr
        exact hfound hc i row ((hsees hc rfl i row hrow').mp hrow) hrow'
  | inserting todo =>
      obtain ⟨hactive, hids'⟩ := h
      refine ⟨hstatus.trans hactive, ?_⟩
      intro hr permissionID
      have hc : c.roleID = r := hrole.symm.trans hr
      rw [hids, hids' hc permissionID]
      simp only [hsees hc rfl _ ⟨r, permissionID⟩ rfl]
  | failing =>
      show st'.status t ≠ .committed
      rw [hstatus]
      exact h
  | committed => trivial
  | ended => trivial

theorem Moves.keyAt (h : c.Moves t stage st stage' st') {i : Nat} {row : RolePermission}
    (hi : st.keyAt i = some row) : st'.keyAt i = some row := by
  cases h with
  | mark hmark => rw [Store.mark_keyAt hmark, hi]
  | insert hinsert => exact Store.insert_keyAt hinsert hi
  | _ => exact hi

theorem Moves.status (h : c.Moves t stage st stage' st') {u : Nat} (hu : u ≠ t) :
    st'.status u = st.status u := by
  cases h with
  | mark hmark => rw [Store.mark_status hmark]
  | insert hinsert => rw [Store.insert_status hinsert]
  | commit | refuseCommit | rollback => exact Function.update_of_ne hu _ _
  | _ => rfl

theorem Moves.owned {mine : Nat → RolePermission → Prop} (h : c.Moves t stage st stage' st')
    (hfits : c.Fits r t st stage) (hown : st.Owned mine)
    (hmine : ∀ row : RolePermission, row.roleID = c.roleID → mine t row) : st'.Owned mine := by
  cases h with
  | @mark i todo _ _ hmark =>
      apply Store.mark_owned hmark hown
      intro row hrow
      obtain ⟨row', hrow', hrole⟩ := hfits.2.1 i (by simp)
      obtain rfl := Option.some.inj (hrow.symm.trans hrow')
      exact hmine row hrole
  | insert hinsert => exact Store.insert_owned hinsert hown (hmine _ rfl)
  | _ => exact hown

theorem Moves.sees_other {mine : Nat → RolePermission → Prop}
    (h : c.Moves t stage st stage' st') (hfits : c.Fits r t st stage) (hown : st.Owned mine)
    {o : Option Nat} (ho : o ≠ some t) (hactive : ∀ u, o = some u → st.status u = .active)
    {i : Nat} {row : RolePermission} (hforeign : stage' = .committed → ¬mine t row) :
    st'.Sees o i row ↔ st.Sees o i row := by
  have hnot : ∀ u, o = some u → st.status u ≠ .aborted := by
    intro u hu
    simp [hactive u hu]
  cases h with
  | mark hmark => exact Store.sees_mark_other hmark (hfits.status_ne nofun nofun) ho hnot
  | insert hinsert => exact Store.sees_insert_other hinsert (hfits.status_ne nofun nofun) ho
  | commit => exact Store.sees_finish_foreign hown (hforeign rfl)
  | refuseCommit => exact Store.sees_finish_aborted (hfits.status_ne nofun nofun)
  | rollback => exact Store.sees_finish_aborted (hfits.status_ne nofun nofun)
  | _ => rfl

theorem Moves.changing (h : c.Moves t stage st stage' st') (hchanging : stage'.changing = true) :
    stage.changing = true ∨ c.starts = true := by
  cases h with
  | start _ hstarts => exact .inr hstarts
  | mark | cleared | insert => exact .inl rfl
  | _ => simp [Stage.changing] at hchanging

theorem Moves.committed (h : c.Moves t stage st stage' st') (hcommitted : stage' = .committed) :
    stage = .inserting [] ∧ st' = st.finish t .committed := by
  cases h with
  | commit => exact ⟨rfl, rfl⟩
  | _ => simp at hcommitted

theorem Moves.fits (h : c.Moves t stage st stage' st') (hrequest : c'.request = c.request)
    (hfits : c.Fits r t st stage) : c'.Fits r t st' stage' := by
  obtain ⟨hrole, hids⟩ := Prod.mk.inj hrequest
  cases h with
  | wait => exact hfits
  | refuse => trivial
  | start =>
      refine ⟨hfits, ?_, ?_⟩
      · intro i hi
        obtain ⟨row, hsees, hrow⟩ := Store.mem_targets.mp hi
        exact ⟨row, hsees.keyAt, (beq_iff_eq.mp hrow).trans hrole.symm⟩
      · intro hr i row hsees hrow
        rw [Store.mem_targets]
        exact ⟨row, hsees, beq_iff_eq.mpr (hrow.trans (hr.symm.trans hrole))⟩
  | @mark i todo _ _ hmark =>
      obtain ⟨hactive, htodo, hfound⟩ := hfits
      refine ⟨(congrFun (Store.mark_status hmark) t).trans hactive, ?_, ?_⟩
      · intro j hj
        obtain ⟨row, hrow, hrole'⟩ := htodo j (List.mem_cons_of_mem _ hj)
        exact ⟨row, (Store.mark_keyAt hmark j).trans hrow, hrole'.trans hrole.symm⟩
      · intro hr j row hsees hrow
        obtain ⟨hsees', hne⟩ := (Store.sees_mark_own hmark).mp hsees
        have hmem := hfound (hrole.symm.trans hr) j row hsees' hrow
        exact (List.mem_cons.mp hmem).resolve_left hne
  | cleared =>
      obtain ⟨hactive, -, hfound⟩ := hfits
      refine ⟨hactive, ?_⟩
      intro hr permissionID
      rw [hids]
      constructor
      · exact .inr
      · rintro (⟨i, hsees⟩ | hmem)
        · exact absurd (hfound (hrole.symm.trans hr) i _ hsees rfl) (by simp)
        · exact hmem
  | @insert permissionID todo _ _ hinsert =>
      obtain ⟨hactive, hids'⟩ := hfits
      refine ⟨(congrFun (Store.insert_status hinsert) t).trans hactive, ?_⟩
      intro hr other
      have hc : c.roleID = r := hrole.symm.trans hr
      have hkey : (⟨c.roleID, permissionID⟩ : RolePermission) = ⟨r, other⟩ ↔
          other = permissionID := by
        simp [hc, eq_comm]
      rw [hids, hids' hc other, Store.sees_insert_own hinsert, hkey, List.mem_cons]
      tauto
  | commit => trivial
  | fail _ hcommitted hended => exact hfits.status_ne hcommitted hended
  | refuseCommit =>
      show (st.finish t .aborted).status t ≠ .committed
      simp [Store.finish]
  | rollback => trivial

end RoleCall

namespace RoleWorld

/-- The requests for role `r` are never two in changing it, and as soon as one of them has
committed the role has the permissions that some request asks for. `given` are the requests. -/
structure Inv (r : Nat) (given : List (Nat × List Nat)) (w : RoleWorld) : Prop where
  same : w.calls.map RoleCall.request = given
  fits : ∀ (t : Nat) (c : RoleCall), w.calls[t]? = some c →
    ∃ stage, c.At stage ∧ c.Fits r t w.store stage
  owned : w.store.Owned fun t row => ∃ ids, given[t]? = some (row.roleID, ids)
  alone : ∀ (t u : Nat) (c d : RoleCall), w.calls[t]? = some c → w.calls[u]? = some d →
    c.roleID = r → d.roleID = r → c.changing = true → d.changing = true → t = u
  requested : (∀ c ∈ w.calls, c.roleID = r → c.answered = false) ∨
    ∃ ids, (r, ids) ∈ given ∧ ∀ permissionID,
      (∃ i, w.store.Sees none i ⟨r, permissionID⟩) ↔ permissionID ∈ ids

section

variable {r : Nat} {given : List (Nat × List Nat)} {w w' : RoleWorld}

theorem Inv.request (h : Inv r given w) {t : Nat} {c : RoleCall} (hc : w.calls[t]? = some c) :
    given[t]? = some (c.roleID, c.permissionIDs) := by
  rw [← h.same, List.getElem?_map, hc]
  rfl

theorem inv_of_start (h : w.AtStart) : Inv r (w.calls.map RoleCall.request) w := by
  obtain ⟨⟨rows, hrows⟩, hstart⟩ := h
  have hat : ∀ c ∈ w.calls, c.At .waiting := by
    intro c hc
    rw [hstart c hc]
    exact ⟨rfl, .inl rfl⟩
  constructor
  · rfl
  · intro t c hc
    refine ⟨.waiting, hat c (List.mem_of_getElem? hc), ?_⟩
    show w.store.status t = .active
    rw [hrows]
    rfl
  · rw [hrows]
    exact Store.load_owned rows _
  · intro t u c d hc hd hcr hdr hchanging
    rw [(hat c (List.mem_of_getElem? hc)).changing] at hchanging
    simp [RoleCall.Stage.changing] at hchanging
  · refine .inl fun c hc hr => ?_
    have hanswered := (hat c hc).answered
    simpa using hanswered

private theorem fits_other (h : Inv r given w) {t u : Nat} {c d : RoleCall}
    {stage stage' stage₁ : RoleCall.Stage} {st' : Store RolePermission Nat}
    (hc : w.calls[t]? = some c) (hd : w.calls[u]? = some d) (hne : u ≠ t) (hat : c.At stage)
    (hfits : c.Fits r t w.store stage) (hmove : c.Moves t stage w.store stage' st')
    (hat₁ : d.At stage₁) (hfits₁ : d.Fits r u w.store stage₁) : d.Fits r u st' stage₁ := by
  refine hfits₁.congr rfl (hmove.status hne) (fun i row hi => hmove.keyAt hi) ?_
  intro hdr hchanging i row hrow
  have hactive : w.store.status u = .active := by
    cases stage₁ with
    | clearing todo => exact hfits₁.1
    | inserting todo => exact hfits₁.1
    | _ => simp [RoleCall.Stage.changing] at hchanging
  apply hmove.sees_other hfits h.owned (by simpa using hne)
  · intro v hv
    obtain rfl := Option.some.inj hv
    exact hactive
  · rintro hcommitted ⟨ids, hids⟩
    obtain ⟨rfl, -⟩ := hmove.committed hcommitted
    have hcr : c.roleID = r := by
      rw [h.request hc] at hids
      exact (Prod.mk.inj (Option.some.inj hids)).1.trans hrow
    exact hne (h.alone t u c d hc hd hcr hdr hat.changing (hat₁.changing.trans hchanging)).symm

private theorem requested_move (h : Inv r given w) {t : Nat} {c c' : RoleCall}
    {stage stage' : RoleCall.Stage} {st' : Store RolePermission Nat}
    (hc : w.calls[t]? = some c) (hrequest : c'.request = c.request)
    (hfits : c.Fits r t w.store stage) (hmove : c.Moves t stage w.store stage' st')
    (hat' : c'.At stage') :
    (∀ d ∈ w.calls.set t c', d.roleID = r → d.answered = false) ∨
      ∃ ids, (r, ids) ∈ given ∧ ∀ permissionID,
        (∃ i, st'.Sees none i ⟨r, permissionID⟩) ↔ permissionID ∈ ids := by
  by_cases hlast : stage' = .committed ∧ c.roleID = r
  · obtain ⟨hcommitted, hcr⟩ := hlast
    obtain ⟨rfl, rfl⟩ := hmove.committed hcommitted
    have hgiven := List.mem_of_getElem? (h.request hc)
    rw [hcr] at hgiven
    refine .inr ⟨c.permissionIDs, hgiven, fun permissionID => ?_⟩
    rw [hfits.2 hcr permissionID]
    simp only [Store.sees_finish_committed, List.not_mem_nil, or_false]
  · have hsame : ∀ i permissionID, st'.Sees none i ⟨r, permissionID⟩ ↔
        w.store.Sees none i ⟨r, permissionID⟩ := by
      intro i permissionID
      apply hmove.sees_other hfits h.owned (by simp) (by simp)
      rintro hcommitted ⟨ids, hids⟩
      rw [h.request hc] at hids
      exact hlast ⟨hcommitted, (Prod.mk.inj (Option.some.inj hids)).1⟩
    rcases h.requested with hnone | ⟨ids, hgiven, hids⟩
    · refine .inl fun d hd hdr => ?_
      rcases List.mem_or_eq_of_mem_set hd with hd | rfl
      · exact hnone d hd hdr
      · by_contra hanswered
        rw [Bool.not_eq_false, hat'.answered] at hanswered
        exact hlast ⟨hanswered, (Prod.mk.inj hrequest).1.symm.trans hdr⟩
    · refine .inr ⟨ids, hgiven, fun permissionID => ?_⟩
      simp only [hsame]
      exact hids permissionID

theorem inv_step {e : Nat × Bool} (h : Inv r given w) (hok : w.Alone r e)
    (hstep : w.step e = some w') : Inv r given w' := by
  obtain ⟨c, c', st', hc, rfl, hrequest, hmoves⟩ := step_cases hstep
  obtain ⟨t, fails⟩ := e
  obtain ⟨stage, hat, hfits⟩ := h.fits t c hc
  obtain ⟨stage', hat', hmove⟩ := hmoves stage hat
  obtain ⟨ht, -⟩ := List.getElem?_eq_some_iff.mp hc
  have hself : (w.calls.set t c')[t]? = some c' := List.getElem?_set_self ht
  -- a request that has begun to change the role was alone in it
  have hexclusive : c'.roleID = r → c'.changing = true → ∀ u d, w.calls[u]? = some d →
      u ≠ t → d.roleID = r → d.changing = false := by
    intro hcr hchanging u d hd hne hdr
    have hcr' : c.roleID = r := (Prod.mk.inj hrequest).1.symm.trans hcr
    rw [hat'.changing] at hchanging
    rcases hmove.changing hchanging with hbefore | hstarts
    · by_contra hd'
      rw [Bool.not_eq_false] at hd'
      exact hne (h.alone t u c d hc hd hcr' hdr (hat.changing.trans hbefore) hd').symm
    · exact hok c hc hcr' hstarts d (List.mem_of_getElem? hd) hdr
  constructor
  · obtain ⟨hlt, hget⟩ := List.getElem?_eq_some_iff.mp (h.request hc)
    rw [List.map_set, hrequest, h.same, show c.request = given[t] from hget.symm]
    exact List.set_getElem_self hlt
  · intro u d hd
    by_cases hu : u = t
    · subst u
      obtain rfl := Option.some.inj (hself.symm.trans hd)
      exact ⟨stage', hat', hmove.fits hrequest hfits⟩
    · rw [List.getElem?_set_ne (Ne.symm hu)] at hd
      obtain ⟨stage₁, hat₁, hfits₁⟩ := h.fits u d hd
      exact ⟨stage₁, hat₁, fits_other h hc hd hu hat hfits hmove hat₁ hfits₁⟩
  · apply hmove.owned hfits h.owned
    intro row hrow
    exact ⟨c.permissionIDs, by rw [h.request hc, hrow]⟩
  · intro u v d d' hd hd' hdr hdr' hchanging hchanging'
    by_cases hu : u = t
    · subst u
      obtain rfl := Option.some.inj (hself.symm.trans hd)
      by_contra hne
      rw [List.getElem?_set_ne hne] at hd'
      rw [hexclusive hdr hchanging v d' hd' (Ne.symm hne) hdr'] at hchanging'
      simp at hchanging'
    · rw [List.getElem?_set_ne (Ne.symm hu)] at hd
      by_cases hv : v = t
      · subst v
        obtain rfl := Option.some.inj (hself.symm.trans hd')
        rw [hexclusive hdr' hchanging' u d hd hu hdr] at hchanging
        simp at hchanging
      · rw [List.getElem?_set_ne (Ne.symm hv)] at hd'
        exact h.alone u v d d' hd hd' hdr hdr' hchanging hchanging'
  · exact requested_move h hc hrequest hfits hmove hat'

end

end RoleWorld

/-- While no deletion of a role's permissions starts when another request has begun to change them
and is yet to commit, the role has the permissions of one of the requests once all have
committed. -/
theorem permissions_of_one_request {r : Nat} {w₀ w : RoleWorld} {es : List (Nat × Bool)}
    (hstart : w₀.AtStart) (hrun : Run RoleWorld.step (RoleWorld.Alone r) w₀ es w)
    (hsome : ∃ c ∈ w.calls, c.roleID = r)
    (hall : ∀ c ∈ w.calls, c.roleID = r → c.answered = true) :
    ∃ c ∈ w₀.calls, c.roleID = r ∧ ∀ permissionID,
      permissionID ∈ w.tables.permissionsOf r ↔ permissionID ∈ c.permissionIDs := by
  have hinv : RoleWorld.Inv r (w₀.calls.map RoleCall.request) w :=
    hrun.invariant (fun _ _ _ h hok hstep => RoleWorld.inv_step h hok hstep)
      (RoleWorld.inv_of_start hstart)
  rcases hinv.requested with hnone | ⟨ids, hgiven, hids⟩
  · obtain ⟨c, hc, hr⟩ := hsome
    have hanswered := hall c hc hr
    rw [hnone c hc hr] at hanswered
    simp at hanswered
  · obtain ⟨c, hc, hrequest⟩ := List.mem_map.mp hgiven
    obtain ⟨hr, rfl⟩ := Prod.mk.inj hrequest
    refine ⟨c, hc, hr, fun permissionID => ?_⟩
    rw [AuthDb.mem_permissionsOf, ← hids permissionID]
    exact Store.mem_live

def sampleRoleTables : AuthDb :=
  { sampleRoles with
    permissions := (Table.empty.insert 0 "users.manage").insert 1 "roles.manage"
    rolePermissions := [⟨0, 0⟩] }

def sampleRoleWorld : RoleWorld where
  db := sampleRoleTables
  store := .load sampleRoleTables.rolePermissions
  calls := [.start sampleAdministrator 0 [0], .start sampleAdministrator 0 [1]]

private theorem sampleRoleWorld_atStart : sampleRoleWorld.AtStart :=
  ⟨⟨_, rfl⟩, by simp [sampleRoleWorld, RoleCall.start]⟩

private theorem exists_calls (ok : RoleWorld → Nat × Bool → Prop) [∀ w e, Decidable (ok w e)]
    (w : RoleWorld) (es : List (Nat × Bool)) (check : RoleWorld → Bool)
    (h : (execute RoleWorld.step (fun w e => decide (ok w e)) w es).any check = true) :
    ∃ w', Run RoleWorld.step ok w es w' ∧ check w' = true :=
  Run.exists_of_execute (fun _ _ hok => of_decide_eq_true hok) h

def replacing (t : Nat) : List (Nat × Bool) := List.replicate 7 (t, false)

/-- The second request deletes when the first one has committed. -/
theorem permissions_of_one_request_turns : ∃ w,
    Run RoleWorld.step (RoleWorld.Alone 0) sampleRoleWorld
      ([(1, false), (1, false)] ++ replacing 0 ++ (replacing 1).drop 2) w ∧
    ∃ c ∈ sampleRoleWorld.calls, c.roleID = 0 ∧ ∀ permissionID,
      permissionID ∈ w.tables.permissionsOf 0 ↔ permissionID ∈ c.permissionIDs := by
  obtain ⟨w, hrun, hcheck⟩ := exists_calls (RoleWorld.Alone 0) sampleRoleWorld
    ([(1, false), (1, false)] ++ replacing 0 ++ (replacing 1).drop 2)
    (fun w => (w.calls.any fun c => c.roleID == 0) && w.calls.all fun c => c.answered)
    (by decide +kernel)
  rw [Bool.and_eq_true, List.any_eq_true, List.all_eq_true] at hcheck
  obtain ⟨⟨c, hc, hr⟩, hall⟩ := hcheck
  exact ⟨w, hrun, permissions_of_one_request sampleRoleWorld_atStart hrun
    ⟨c, hc, beq_iff_eq.mp hr⟩ fun c hc _ => hall c hc⟩

/-- The second request deletes before the first one has committed: neither finds what the other
inserts, and the role ends with both permissions. -/
theorem overlapping_requests_add_up : ¬∀ (r : Nat) (w₀ w : RoleWorld) (es : List (Nat × Bool)),
    w₀.AtStart → Run RoleWorld.step (fun _ _ => True) w₀ es w →
    (∃ c ∈ w.calls, c.roleID = r) → (∀ c ∈ w.calls, c.roleID = r → c.answered = true) →
    ∃ c ∈ w₀.calls, c.roleID = r ∧ ∀ permissionID,
      permissionID ∈ w.tables.permissionsOf r ↔ permissionID ∈ c.permissionIDs := by
  intro h
  obtain ⟨w, hrun, hcheck⟩ := exists_calls (fun _ _ => True) sampleRoleWorld
    ([(1, false), (1, false), (1, false)] ++ replacing 0 ++ (replacing 1).drop 3)
    (fun w => (w.calls.any fun c => c.roleID == 0) && (w.calls.all fun c => c.answered) &&
      w.tables.permissionsOf 0 == [0, 1]) (by decide +kernel)
  simp only [Bool.and_eq_true, List.any_eq_true, List.all_eq_true, beq_iff_eq] at hcheck
  obtain ⟨⟨hsome, hall⟩, hboth⟩ := hcheck
  obtain ⟨c, hc, -, hids⟩ := h 0 sampleRoleWorld w _ sampleRoleWorld_atStart hrun hsome
    fun c hc _ => hall c hc
  have hzero := (hids 0).mp (by simp [hboth])
  have hone := (hids 1).mp (by simp [hboth])
  have hcalls : c = .start sampleAdministrator 0 [0] ∨ c = .start sampleAdministrator 0 [1] := by
    simpa [sampleRoleWorld] using hc
  rcases hcalls with rfl | rfl
  · simp [RoleCall.start] at hone
  · simp [RoleCall.start] at hzero

end NotificationPlatform
