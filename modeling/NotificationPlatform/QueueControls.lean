import NotificationPlatform.Lib.InsertAbsent
import NotificationPlatform.World

/-!
# Getting or creating a queue control

`EnsureControl` and `GetControl` call each other. Here each runs a statement at a time, among any
number of calls for the same tenant and channel and beside whatever else changes the database. A
call that finds no control creates one, and the row that is there after its insertion, its own or
another's, is the one it reads.
-/

namespace NotificationPlatform

open Lib
open Lib.InsertAbsent

namespace QueueControls

structure ControlRow where
  id : Nat
  tenantID : String
  channel : String
  queueName : String
  status : ControlStatus
  maxAttempts : Int
  retryDelaySeconds : Int
  notes : String
  createdAt : Nat
  updatedAt : Nat
  updatedBy : Option String
  deriving DecidableEq

/-- The columns that `UNIQUE (tenant_id, channel)` names. -/
def ControlRow.key (row : ControlRow) : String × String := (row.tenantID, row.channel)

structure ControlDb where
  tenants : List Tenant
  controls : List ControlRow
  unique : (controls.map ControlRow.key).Nodup
  nextId : Nat
  now : Nat

namespace ControlDb

def rowsOf (db : ControlDb) (tenantID channel : String) : List ControlRow :=
  withKey ControlRow.key (tenantID, channel) db.controls

def HasTenant (db : ControlDb) (tenantID : String) : Prop :=
  ∃ tenant ∈ db.tenants, tenant.id = tenantID

def selectSlug (db : ControlDb) (tenantID : String) : Except Err String :=
  match db.tenants.find? (fun t => t.id == tenantID) with
  | none => .error .noRows
  | some tenant => .ok tenant.slug

def newRow (db : ControlDb) (tenantID channel queueName : String) : ControlRow where
  id := db.nextId
  tenantID := tenantID
  channel := channel
  queueName := queueName
  status := .active
  maxAttempts := 3
  retryDelaySeconds := 60
  notes := ""
  createdAt := db.now
  updatedAt := db.now
  updatedBy := none

/-- The `INSERT` of `EnsureControl`. A control that is there for the tenant and channel is left
alone; the reference to the tenant and the unique index of the queue names are errors. -/
def insertControl (db : ControlDb) (tenantID channel queueName : String) : Except Err ControlDb :=
  if h : db.rowsOf tenantID channel = [] then
    if db.tenants.all (fun t => t.id != tenantID) then .error .driver
    else if db.controls.any (fun row => row.queueName == queueName) then .error .driver
    else
      .ok { db with
        controls := db.controls ++ [db.newRow tenantID channel queueName]
        unique := nodup_append db.unique h
        nextId := db.nextId + 1 }
  else .ok db

def selectControl (db : ControlDb) (tenantID channel : String) : Option ControlRow :=
  (db.rowsOf tenantID channel).head?

end ControlDb

inductive Phase where
  | selectSlug
  | insert (queueName : String)
  | selectControl
  | returned (row : ControlRow)
  | failed (err : Err)
  deriving DecidableEq

/-- A call with the number of times it has entered one of the two functions and the number of
statements it has run. -/
structure ControlCall where
  phase : Phase
  entries : Nat
  statements : Nat

def ensureCall : ControlCall := ⟨.selectSlug, 1, 0⟩

def getCall : ControlCall := ⟨.selectControl, 1, 0⟩

def ControlCall.ended (call : ControlCall) : Bool :=
  match call.phase with
  | .returned _ => true
  | .failed _ => true
  | _ => false

def ControlCall.run (cfg : Config) (tenantID channel : String) (db : ControlDb)
    (call : ControlCall) : Option (ControlDb × ControlCall) :=
  match call.phase with
  | .selectSlug =>
      some (db, match db.selectSlug tenantID with
        | .error err => ⟨.failed err, call.entries, call.statements + 1⟩
        | .ok slug => ⟨.insert (nameForTenant cfg slug channel), call.entries, call.statements + 1⟩)
  | .insert queueName =>
      some (match db.insertControl tenantID channel queueName with
        | .error err => (db, ⟨.failed err, call.entries, call.statements + 1⟩)
        -- `EnsureControl` goes on as `GetControl`
        | .ok db => (db, ⟨.selectControl, call.entries + 1, call.statements + 1⟩))
  | .selectControl =>
      some (db, match db.selectControl tenantID channel with
        | some row => ⟨.returned row, call.entries, call.statements + 1⟩
        -- `GetControl` goes on as `EnsureControl`
        | none => ⟨.selectSlug, call.entries + 1, call.statements + 1⟩)
  | .returned _ => none
  | .failed _ => none

/-- A database and the calls for one tenant and channel. -/
structure ControlWorld where
  db : ControlDb
  calls : List ControlCall

inductive Event where
  | ensure
  | get
  | step (i : Nat)
  | other (db : ControlDb)

def ControlWorld.step (cfg : Config) (tenantID channel : String) (w : ControlWorld) :
    Event → Option ControlWorld
  | .ensure => some { w with calls := w.calls ++ [ensureCall] }
  | .get => some { w with calls := w.calls ++ [getCall] }
  | .step i => do
      let call ← w.calls[i]?
      let (db, call) ← call.run cfg tenantID channel w.db
      some ⟨db, w.calls.set i call⟩
  | .other db => some { w with db }

/-- The queue name that a call is about to insert is not used by another control, and what else
happens neither removes the tenant nor touches its control for the channel. -/
def Assumed (tenantID channel : String) (w : ControlWorld) : Event → Prop
  | .step i => ∀ call queueName, w.calls[i]? = some call → call.phase = .insert queueName →
      ∀ row ∈ w.db.controls, row.queueName = queueName → row.key = (tenantID, channel)
  | .other db => db.HasTenant tenantID ∧
      InsertAbsent.Keeps ControlRow.key (tenantID, channel) w.db.controls db.controls
  | _ => True

section

variable {cfg : Config} {tenantID channel : String} {db db' : ControlDb}

theorem ControlDb.selectSlug_ok (h : db.HasTenant tenantID) :
    ∃ slug, db.selectSlug tenantID = .ok slug := by
  obtain ⟨tenant, hmem, rfl⟩ := h
  cases hfind : db.tenants.find? (fun t => t.id == tenant.id) with
  | none => simpa using List.find?_eq_none.mp hfind tenant hmem
  | some found => exact ⟨found.slug, by rw [selectSlug, hfind]⟩

/-- Where the name is not used by another control, the insertion succeeds, and it inserts a row
unless there is one. -/
theorem ControlDb.insertControl_ok {queueName : String} (htenant : db.HasTenant tenantID)
    (hname : ∀ row ∈ db.controls, row.queueName = queueName → row.key = (tenantID, channel)) :
    ∃ db', db.insertControl tenantID channel queueName = .ok db' ∧ db'.tenants = db.tenants ∧
      db'.controls =
        insertAbsent ControlRow.key (db.newRow tenantID channel queueName) db.controls := by
  unfold insertControl insertAbsent
  by_cases hrows : db.rowsOf tenantID channel = []
  · have hfree : withKey ControlRow.key (db.newRow tenantID channel queueName).key
        db.controls = [] := hrows
    have hthere : db.tenants.all (fun t => t.id != tenantID) = false := by
      obtain ⟨tenant, hmem, hid⟩ := htenant
      exact List.all_eq_false.mpr ⟨tenant, hmem, by simp [hid]⟩
    have hunused : db.controls.any (fun row => row.queueName == queueName) = false := by
      rw [List.any_eq_false]
      intro row hrow hused
      have hkey := hname row hrow (by simpa using hused)
      have hmem : row ∈ db.rowsOf tenantID channel := mem_withKey.mpr ⟨hrow, hkey⟩
      rw [hrows] at hmem
      exact List.not_mem_nil hmem
    rw [dif_pos hrows, if_pos hfree, hthere, hunused]
    exact ⟨_, rfl, rfl, rfl⟩
  · have htaken : ¬withKey ControlRow.key (db.newRow tenantID channel queueName).key
        db.controls = [] := hrows
    rw [dif_neg hrows, if_neg htaken]
    exact ⟨db, rfl, rfl, rfl⟩

/-- The numbers tell how a call has come to its statement. Behind its insertion there is a row. -/
def CallOk (tenantID channel : String) (db : ControlDb) (call : ControlCall) : Prop :=
  match call.phase with
  | .selectSlug => call.entries = call.statements + 1 ∧ call.statements ≤ 1
  | .insert _ => call.entries = call.statements ∧ call.statements ≤ 2
  | .selectControl =>
      (call.entries = 1 ∧ call.statements = 0) ∨
        (call.entries = call.statements ∧ call.statements ≤ 3 ∧ db.rowsOf tenantID channel ≠ [])
  | .returned row =>
      call.entries ≤ 3 ∧ call.statements ≤ 4 ∧ db.rowsOf tenantID channel = [row]
  | .failed _ => False

theorem CallOk.bounds {call : ControlCall} (h : CallOk tenantID channel db call) :
    call.entries ≤ 3 ∧ call.statements ≤ 4 := by
  unfold CallOk at h
  split at h
  · omega
  · omega
  · rcases h with ⟨hentries, hstatements⟩ | ⟨hentries, hstatements, -⟩ <;> omega
  · exact ⟨h.1, h.2.1⟩
  · exact h.elim

theorem CallOk.keeps {call : ControlCall} (h : CallOk tenantID channel db call)
    (hkeeps : InsertAbsent.Keeps ControlRow.key (tenantID, channel) db.controls db'.controls) :
    CallOk tenantID channel db' call := by
  unfold CallOk at h ⊢
  split at h
  · exact h
  · exact h
  · rcases h with hfirst | ⟨hentries, hstatements, htaken⟩
    · exact .inl hfirst
    · exact .inr ⟨hentries, hstatements, hkeeps.taken htaken⟩
  · next row _ =>
      obtain ⟨hentries, hstatements, hrows⟩ := h
      have htaken : withKey ControlRow.key (tenantID, channel) db.controls ≠ [] := by
        have hrow : withKey ControlRow.key (tenantID, channel) db.controls = [row] := hrows
        rw [hrow]
        exact List.cons_ne_nil _ _
      exact ⟨hentries, hstatements, (hkeeps htaken).trans hrows⟩
  · exact h

theorem CallOk.run {call call' : ControlCall} (htenant : db.HasTenant tenantID)
    (hcall : CallOk tenantID channel db call)
    (hname : ∀ queueName, call.phase = .insert queueName →
      ∀ row ∈ db.controls, row.queueName = queueName → row.key = (tenantID, channel))
    (hrun : call.run cfg tenantID channel db = some (db', call')) :
    db'.HasTenant tenantID ∧ CallOk tenantID channel db' call' ∧
      InsertAbsent.Keeps ControlRow.key (tenantID, channel) db.controls db'.controls ∧
      call'.statements = call.statements + 1 := by
  obtain ⟨phase, entries, statements⟩ := call
  cases phase with
  | selectSlug =>
      obtain ⟨slug, hslug⟩ := ControlDb.selectSlug_ok htenant
      simp only [ControlCall.run, hslug, Option.some.injEq, Prod.mk.injEq] at hrun
      obtain ⟨rfl, rfl⟩ := hrun
      refine ⟨htenant, ?_, .refl _ _ _, rfl⟩
      simp only [CallOk] at hcall ⊢
      omega
  | insert queueName =>
      obtain ⟨after, hinsert, htenants, hcontrols⟩ :=
        ControlDb.insertControl_ok htenant (hname queueName rfl)
      simp only [ControlCall.run, hinsert, Option.some.injEq, Prod.mk.injEq] at hrun
      obtain ⟨rfl, rfl⟩ := hrun
      have hkeeps : InsertAbsent.Keeps ControlRow.key (tenantID, channel) db.controls
          after.controls := by
        rw [hcontrols]
        exact keeps_insertAbsent _ _ _ _
      have htaken : after.rowsOf tenantID channel ≠ [] := by
        rw [ControlDb.rowsOf, hcontrols]
        exact withKey_insertAbsent_ne_nil ControlRow.key
          (db.newRow tenantID channel queueName) db.controls
      have hthere : after.HasTenant tenantID := by
        rw [ControlDb.HasTenant, htenants]
        exact htenant
      refine ⟨hthere, ?_, hkeeps, rfl⟩
      simp only [CallOk] at hcall ⊢
      exact .inr ⟨by omega, by omega, htaken⟩
  | selectControl =>
      simp only [ControlCall.run, Option.some.injEq, Prod.mk.injEq] at hrun
      obtain ⟨rfl, rfl⟩ := hrun
      refine ⟨htenant, ?_, .refl _ _ _, ?_⟩
      · cases hselect : db.selectControl tenantID channel with
        | some row =>
            have hrows : db.rowsOf tenantID channel = [row] :=
              withKey_eq_of_head? (length_withKey_le db.unique) hselect
            simp only [CallOk] at hcall ⊢
            exact ⟨by omega, by omega, hrows⟩
        | none =>
            have hrows : db.rowsOf tenantID channel = [] := List.head?_eq_none_iff.mp hselect
            simp only [CallOk, hrows, ne_eq, not_true_eq_false, and_false, or_false] at hcall ⊢
            omega
      · split <;> rfl
  | returned row => simp [ControlCall.run] at hrun
  | failed err => simp [ControlCall.run] at hrun

/-- What holds of a database and the calls, when `first` was the database at the start. -/
structure Inv (tenantID channel : String) (first : ControlDb) (w : ControlWorld) : Prop where
  tenant : w.db.HasTenant tenantID
  kept : InsertAbsent.Keeps ControlRow.key (tenantID, channel) first.controls w.db.controls
  calls : ∀ call ∈ w.calls, CallOk tenantID channel w.db call

variable {first : ControlDb} {w w' : ControlWorld}

theorem Inv.start (htenant : db.HasTenant tenantID) : Inv tenantID channel db ⟨db, []⟩ :=
  ⟨htenant, .refl _ _ _, fun _ hmem => absurd hmem List.not_mem_nil⟩

theorem Inv.arrive {call : ControlCall} (h : Inv tenantID channel first w)
    (hcall : CallOk tenantID channel w.db call) :
    Inv tenantID channel first { w with calls := w.calls ++ [call] } := by
  refine ⟨h.tenant, h.kept, fun other hother => ?_⟩
  rcases List.mem_append.mp hother with hold | hnew
  · exact h.calls other hold
  · rw [List.mem_singleton.mp hnew]
    exact hcall

theorem ControlWorld.step_call {i : Nat} (h : w.step cfg tenantID channel (.step i) = some w') :
    ∃ call db' call', w.calls[i]? = some call ∧
      call.run cfg tenantID channel w.db = some (db', call') ∧ w' = ⟨db', w.calls.set i call'⟩ := by
  obtain ⟨call, hcall, hrest⟩ := Option.bind_eq_some_iff.mp h
  obtain ⟨⟨db', call'⟩, hrun, hw'⟩ := Option.bind_eq_some_iff.mp hrest
  exact ⟨call, db', call', hcall, hrun, (Option.some.inj hw').symm⟩

theorem Inv.step {e : Event} (h : Inv tenantID channel first w)
    (hassumed : Assumed tenantID channel w e) (hstep : w.step cfg tenantID channel e = some w') :
    Inv tenantID channel first w' := by
  cases e with
  | ensure =>
      obtain rfl := Option.some.inj hstep
      exact h.arrive ⟨rfl, Nat.zero_le 1⟩
  | get =>
      obtain rfl := Option.some.inj hstep
      exact h.arrive (.inl ⟨rfl, rfl⟩)
  | step i =>
      obtain ⟨call, db', call', hcall, hrun, rfl⟩ := ControlWorld.step_call hstep
      obtain ⟨htenant, hcall', hkeeps, -⟩ := CallOk.run h.tenant
        (h.calls call (List.mem_of_getElem? hcall))
        (fun queueName => hassumed call queueName hcall) hrun
      refine ⟨htenant, h.kept.trans hkeeps, fun other hother => ?_⟩
      rcases List.mem_or_eq_of_mem_set hother with hold | rfl
      · exact (h.calls other hold).keeps hkeeps
      · exact hcall'
  | other db' =>
      obtain rfl := Option.some.inj hstep
      obtain ⟨htenant, hkeeps⟩ := hassumed
      exact ⟨htenant, h.kept.trans hkeeps, fun call hmem => (h.calls call hmem).keeps hkeeps⟩

theorem Inv.run {es : List Event} (h : Inv tenantID channel first w)
    (hrun : Run (ControlWorld.step cfg tenantID channel) (Assumed tenantID channel) w es w') :
    Inv tenantID channel first w' :=
  hrun.invariant (fun _ _ _ hinv hassumed hstep => hinv.step hassumed hstep) h

theorem exists_step {i : Nat} {call : ControlCall} (hcall : w.calls[i]? = some call)
    (hended : call.ended = false) : ∃ w', w.step cfg tenantID channel (.step i) = some w' := by
  obtain ⟨phase, entries, statements⟩ := call
  cases phase with
  | returned row => simp [ControlCall.ended] at hended
  | failed err => simp [ControlCall.ended] at hended
  | _ => simp [ControlWorld.step, hcall, ControlCall.run]

def ControlWorld.statementsOf (w : ControlWorld) (i : Nat) : Nat :=
  ((w.calls[i]?).map ControlCall.statements).getD 0

def Event.isStep (i : Nat) : Event → Bool
  | .step j => j == i
  | _ => false

private theorem statementsOf_arrive {call : ControlCall} (hnew : call.statements = 0) (i : Nat) :
    ControlWorld.statementsOf { w with calls := w.calls ++ [call] } i = w.statementsOf i := by
  unfold ControlWorld.statementsOf
  rcases Nat.lt_trichotomy i w.calls.length with hlt | rfl | hgt
  · rw [List.getElem?_append_left hlt]
  · simp [hnew]
  · have hnone : (w.calls ++ [call])[i]? = none := List.getElem?_eq_none (by simp; omega)
    rw [hnone, List.getElem?_eq_none (by omega)]

theorem statementsOf_step {e : Event} (h : Inv tenantID channel first w)
    (hassumed : Assumed tenantID channel w e) (hstep : w.step cfg tenantID channel e = some w')
    (i : Nat) : w'.statementsOf i = w.statementsOf i + if e.isStep i then 1 else 0 := by
  cases e with
  | ensure =>
      obtain rfl := Option.some.inj hstep
      exact statementsOf_arrive rfl i
  | get =>
      obtain rfl := Option.some.inj hstep
      exact statementsOf_arrive rfl i
  | other db' =>
      obtain rfl := Option.some.inj hstep
      rfl
  | step j =>
      obtain ⟨call, db', call', hcall, hrun, rfl⟩ := ControlWorld.step_call hstep
      obtain ⟨-, -, -, hcount⟩ := CallOk.run h.tenant
        (h.calls call (List.mem_of_getElem? hcall))
        (fun queueName => hassumed call queueName hcall) hrun
      have hlt : j < w.calls.length := (List.getElem?_eq_some_iff.mp hcall).1
      by_cases hij : j = i
      · subst hij
        simp [ControlWorld.statementsOf, Event.isStep, List.getElem?_set_self hlt, hcall, hcount]
      · simp [ControlWorld.statementsOf, Event.isStep, hij, List.getElem?_set_ne hij]

theorem statementsOf_run {es : List Event} (h : Inv tenantID channel first w)
    (hrun : Run (ControlWorld.step cfg tenantID channel) (Assumed tenantID channel) w es w')
    (i : Nat) : w'.statementsOf i = w.statementsOf i + es.countP (Event.isStep i) := by
  induction hrun with
  | nil w => rfl
  | @cons w w₁ w' e es hassumed hstep hrest ih =>
      rw [ih (h.step hassumed hstep), statementsOf_step h hassumed hstep i, List.countP_cons]
      omega

end

/-- At most `n` statements of a call with nothing in between. -/
def ControlCall.finish (cfg : Config) (tenantID channel : String) :
    Nat → ControlDb → ControlCall → ControlDb × ControlCall
  | 0, db, call => (db, call)
  | n + 1, db, call =>
      match call.run cfg tenantID channel db with
      | some (db, call) => ControlCall.finish cfg tenantID channel n db call
      | none => (db, call)

def ControlRow.control (row : ControlRow) : Control :=
  ⟨row.id, row.tenantID, row.channel, row.queueName, row.status⟩

structure Shows (db : Db) (full : ControlDb) : Prop where
  tenants : db.tenants = full.tenants
  controls : db.controls = full.controls.map ControlRow.control
  nextId : db.nextId = full.nextId

/-- A call that was run alone has ended as a function of the pipeline's database ends. -/
def EndsAs (full : ControlDb) (result : Except Err (Control × Db))
    (after : ControlDb × ControlCall) : Prop :=
  match result with
  | .ok (control, db) =>
      ∃ row, after.2.phase = .returned row ∧ row.control = control ∧ Shows db after.1
  | .error err => after.2.phase = .failed err ∧ after.1 = full

section

variable {cfg : Config} {tenantID channel : String} {db : Db} {full : ControlDb}

private theorem finish_ended {call : ControlCall} (h : call.ended = true) (n : Nat) :
    call.finish cfg tenantID channel n full = (full, call) := by
  obtain ⟨phase, entries, statements⟩ := call
  cases n with
  | zero => rfl
  | succ n =>
      cases phase with
      | returned row => rfl
      | failed err => rfl
      | _ => simp [ControlCall.ended] at h

theorem Shows.findControl (h : Shows db full) :
    db.findControl tenantID channel =
      (full.selectControl tenantID channel).map ControlRow.control := by
  rw [Db.findControl, h.controls, List.find?_map, ControlDb.selectControl, ControlDb.rowsOf,
    withKey, List.head?_filter]
  congr 2
  funext row
  by_cases hid : row.tenantID = tenantID <;> by_cases hchannel : row.channel = channel <;>
    simp [ControlRow.control, ControlRow.key, hid, hchannel]

private theorem finish_succ {call call' : ControlCall} {full' : ControlDb}
    (h : call.run cfg tenantID channel full = some (full', call')) (n : Nat) :
    call.finish cfg tenantID channel (n + 1) full = call'.finish cfg tenantID channel n full' := by
  rw [ControlCall.finish, h]

private theorem run_selectControl {row : ControlRow}
    (h : full.selectControl tenantID channel = some row) (entries statements : Nat) :
    ControlCall.run cfg tenantID channel full ⟨.selectControl, entries, statements⟩ =
      some (full, ⟨.returned row, entries, statements + 1⟩) := by
  simp only [ControlCall.run, h]

private theorem run_insert {queueName : String} {result : Except Err ControlDb}
    (h : full.insertControl tenantID channel queueName = result) (entries statements : Nat) :
    ControlCall.run cfg tenantID channel full ⟨.insert queueName, entries, statements⟩ =
      some (match result with
        | .error err => (full, ⟨.failed err, entries, statements + 1⟩)
        | .ok full => (full, ⟨.selectControl, entries + 1, statements + 1⟩)) := by
  cases result <;> simp only [ControlCall.run, h]

theorem finish_selectSlug (h : Shows db full) (n entries statements : Nat) :
    EndsAs full (db.ensureControl cfg tenantID channel)
      (ControlCall.finish cfg tenantID channel (n + 3) full
        ⟨.selectSlug, entries, statements⟩) := by
  unfold Db.ensureControl
  rw [h.tenants, h.findControl]
  cases hfind : full.tenants.find? (fun t => t.id == tenantID) with
  | none =>
      have hrun : ControlCall.run cfg tenantID channel full ⟨.selectSlug, entries, statements⟩ =
          some (full, ⟨.failed .noRows, entries, statements + 1⟩) := by
        simp only [ControlCall.run, ControlDb.selectSlug, hfind]
      rw [finish_succ hrun, finish_ended rfl]
      exact ⟨rfl, rfl⟩
  | some tenant =>
      have hthere : full.tenants.all (fun t => t.id != tenantID) = false := by
        have hid : tenant.id = tenantID := by simpa using List.find?_some hfind
        exact List.all_eq_false.mpr ⟨tenant, List.mem_of_find?_eq_some hfind, by simp [hid]⟩
      have hrun : ControlCall.run cfg tenantID channel full ⟨.selectSlug, entries, statements⟩ =
          some (full, ⟨.insert (nameForTenant cfg tenant.slug channel), entries,
            statements + 1⟩) := by
        simp only [ControlCall.run, ControlDb.selectSlug, hfind]
      rw [finish_succ hrun]
      cases hselect : full.selectControl tenantID channel with
      | some row =>
          have htaken : ¬full.rowsOf tenantID channel = [] := by
            intro hnone
            simp [ControlDb.selectControl, hnone] at hselect
          have hinsert : full.insertControl tenantID channel
              (nameForTenant cfg tenant.slug channel) = .ok full := dif_neg htaken
          rw [finish_succ (run_insert hinsert _ _), finish_succ (run_selectControl hselect _ _),
            finish_ended rfl]
          exact ⟨row, rfl, rfl, h⟩
      | none =>
          have hfree : full.rowsOf tenantID channel = [] := List.head?_eq_none_iff.mp hselect
          have hnames : (db.controls.any fun c =>
                c.queueName == nameForTenant cfg tenant.slug channel) =
              full.controls.any fun row =>
                row.queueName == nameForTenant cfg tenant.slug channel := by
            rw [h.controls, List.any_map]
            rfl
          simp only [Option.map_none, hnames]
          cases hused : full.controls.any fun row =>
              row.queueName == nameForTenant cfg tenant.slug channel with
          | true =>
              have hinsert : full.insertControl tenantID channel
                  (nameForTenant cfg tenant.slug channel) = .error .driver := by
                rw [ControlDb.insertControl, dif_pos hfree, hthere, hused]
                rfl
              rw [finish_succ (run_insert hinsert _ _), finish_ended rfl]
              exact ⟨rfl, rfl⟩
          | false =>
              let row := full.newRow tenantID channel (nameForTenant cfg tenant.slug channel)
              let full' : ControlDb :=
                { full with
                  controls := full.controls ++ [row]
                  unique := nodup_append full.unique hfree
                  nextId := full.nextId + 1 }
              have hinsert : full.insertControl tenantID channel
                  (nameForTenant cfg tenant.slug channel) = .ok full' := by
                rw [ControlDb.insertControl, dif_pos hfree, hthere, hused]
                rfl
              have hself : withKey ControlRow.key row.key (full.controls ++ [row]) = [row] :=
                withKey_append_self hfree
              have hread : full'.selectControl tenantID channel = some row :=
                congrArg List.head? hself
              rw [finish_succ (run_insert hinsert _ _), finish_succ (run_selectControl hread _ _),
                finish_ended rfl]
              refine ⟨row, rfl, ?_, rfl, ?_, ?_⟩
              · rw [h.nextId]
                rfl
              · rw [h.nextId, h.controls]
                change full.controls.map ControlRow.control ++ [row.control] =
                  (full.controls ++ [row]).map ControlRow.control
                rw [List.map_append, List.map_singleton]
              · rw [h.nextId]

theorem finish_getCall (h : Shows db full) (n : Nat) :
    EndsAs full (db.getControl cfg tenantID channel)
      (getCall.finish cfg tenantID channel (n + 4) full) := by
  unfold Db.getControl
  rw [h.findControl]
  cases hselect : full.selectControl tenantID channel with
  | some row =>
      simp only [getCall, ControlCall.finish, ControlCall.run, hselect]
      exact ⟨row, rfl, rfl, h⟩
  | none =>
      have hrun : getCall.run cfg tenantID channel full = some (full, ⟨.selectSlug, 2, 1⟩) := by
        simp only [getCall, ControlCall.run, hselect]
      rw [finish_succ hrun]
      exact finish_selectSlug h n 2 1

end

def racingDb : ControlDb := ⟨[⟨"t1", "acme", .active⟩], [], List.nodup_nil, 7, 0⟩

/-- **One call at a time.** With no other caller at work, the statements of `EnsureControl` and of
`GetControl` end as the functions do that the delivery pipeline is modelled with: with the same
control and the same rows, or with the same error and no row changed. -/
theorem control_calls_alone (cfg : Config) (tenantID channel : String) {db : Db} {full : ControlDb}
    (h : Shows db full) (n : Nat) :
    EndsAs full (db.ensureControl cfg tenantID channel)
        (ensureCall.finish cfg tenantID channel (n + 3) full) ∧
      EndsAs full (db.getControl cfg tenantID channel)
        (getCall.finish cfg tenantID channel (n + 4) full) :=
  ⟨finish_selectSlug h n 1 0, finish_getCall h n⟩

def racingPipelineDb : Db :=
  { sampleWorld.sys.db with tenants := racingDb.tenants, controls := [], nextId := racingDb.nextId }

theorem control_calls_alone_first : Shows racingPipelineDb racingDb ∧
    (racingPipelineDb.ensureControl (sampleConfig 3) "t1" "email").map (fun r => r.1.queueName) =
      .ok "tenant.acme.email" ∧
    EndsAs racingDb (racingPipelineDb.ensureControl (sampleConfig 3) "t1" "email")
      (ensureCall.finish (sampleConfig 3) "t1" "email" 3 racingDb) ∧
    EndsAs racingDb (racingPipelineDb.getControl (sampleConfig 3) "t1" "email")
      (getCall.finish (sampleConfig 3) "t1" "email" 4 racingDb) := by
  have hshows : Shows racingPipelineDb racingDb := ⟨rfl, rfl, rfl⟩
  exact ⟨hshows, by decide +kernel, control_calls_alone (sampleConfig 3) "t1" "email" hshows 0⟩

/-- Calls for one tenant and channel end, agree on the control, and leave a control that was there
as it was. -/
theorem control_calls_agree (cfg : Config) {tenantID channel : String} {db : ControlDb}
    {es : List Event} {w : ControlWorld} (htenant : db.HasTenant tenantID)
    (hrun : Run (ControlWorld.step cfg tenantID channel) (Assumed tenantID channel) ⟨db, []⟩ es w) :
    (∀ i call, w.calls[i]? = some call →
      call.entries ≤ 3 ∧ es.countP (Event.isStep i) ≤ 4 ∧ (∀ err, call.phase ≠ .failed err) ∧
      (call.ended = false → ∃ w', w.step cfg tenantID channel (.step i) = some w')) ∧
    (∀ call ∈ w.calls, ∀ row, call.phase = .returned row → w.db.rowsOf tenantID channel = [row]) ∧
    (∀ call ∈ w.calls, ∀ call' ∈ w.calls, ∀ row row', call.phase = .returned row →
      call'.phase = .returned row' → row.id = row'.id) ∧
    ∀ row ∈ db.rowsOf tenantID channel, w.db.rowsOf tenantID channel = [row] := by
  have hstart : Inv tenantID channel db ⟨db, []⟩ := .start htenant
  have hinv := hstart.run hrun
  have hreturned : ∀ call ∈ w.calls, ∀ row, call.phase = .returned row →
      w.db.rowsOf tenantID channel = [row] := by
    intro call hmem row hphase
    have hok := hinv.calls call hmem
    rw [CallOk, hphase] at hok
    exact hok.2.2
  refine ⟨?_, hreturned, ?_, ?_⟩
  · intro i call hcall
    have hok := hinv.calls call (List.mem_of_getElem? hcall)
    refine ⟨hok.bounds.1, ?_, ?_, exists_step hcall⟩
    · have hcount := statementsOf_run hstart hrun i
      have hzero : ControlWorld.statementsOf ⟨db, []⟩ i = 0 := by simp [ControlWorld.statementsOf]
      have hstatements : w.statementsOf i = call.statements := by
        simp [ControlWorld.statementsOf, hcall]
      have hle := hok.bounds.2
      omega
    · intro err hphase
      rw [CallOk, hphase] at hok
      exact hok
  · intro call hmem call' hmem' row row' hphase hphase'
    have hrows := hreturned call hmem row hphase
    rw [hreturned call' hmem' row' hphase'] at hrows
    rw [(List.cons.inj hrows).1]
  · intro row hrow
    have htaken : withKey ControlRow.key (tenantID, channel) db.controls ≠ [] :=
      List.ne_nil_of_mem hrow
    have hsame : w.db.rowsOf tenantID channel = db.rowsOf tenantID channel := hinv.kept htaken
    obtain ⟨only, honly⟩ : ∃ only, db.rowsOf tenantID channel = [only] :=
      List.length_eq_one_iff.mp
        (Nat.le_antisymm (length_withKey_le db.unique) (List.length_pos_of_mem hrow))
    rw [honly] at hrow
    rw [hsame, honly, List.mem_singleton.mp hrow]

def racingCalls : List Event :=
  [.get, .get, .step 0, .step 1, .step 0, .step 1, .step 0, .step 1, .step 1, .step 0]

/-- Each row of a list of controls that has the name belongs to the tenant and channel. -/
def assumedb (tenantID channel : String) (w : ControlWorld) : Event → Bool
  | .step i =>
      match (w.calls[i]?).map ControlCall.phase with
      | some (.insert queueName) =>
          w.db.controls.all fun row => row.queueName != queueName || row.key == (tenantID, channel)
      | _ => true
  | .other _ => false
  | _ => true

theorem assumed_of_assumedb {tenantID channel : String} (w : ControlWorld) (e : Event)
    (h : assumedb tenantID channel w e = true) : Assumed tenantID channel w e := by
  cases e with
  | step i =>
      intro call queueName hcall hphase row hrow hname
      simp only [assumedb, hcall, Option.map_some, hphase, List.all_eq_true] at h
      simpa [hname] using h row hrow
  | other db => simp [assumedb] at h
  | _ => trivial

theorem control_calls_agree_racing : ∃ w : ControlWorld,
    w.calls.map ControlCall.phase =
      [.returned (racingDb.newRow "t1" "email" "tenant.acme.email"),
        .returned (racingDb.newRow "t1" "email" "tenant.acme.email")] ∧
    w.db.rowsOf "t1" "email" = [racingDb.newRow "t1" "email" "tenant.acme.email"] := by
  have hexecuted : (execute (ControlWorld.step (sampleConfig 3) "t1" "email")
      (assumedb "t1" "email") ⟨racingDb, []⟩ racingCalls).any (fun w => decide
        (w.calls.map ControlCall.phase =
          [.returned (racingDb.newRow "t1" "email" "tenant.acme.email"),
            .returned (racingDb.newRow "t1" "email" "tenant.acme.email")])) = true := by
    decide +kernel
  have htenant : racingDb.HasTenant "t1" := ⟨_, List.mem_cons_self, rfl⟩
  obtain ⟨w, hrun, hphases⟩ := Run.exists_of_execute assumed_of_assumedb hexecuted
  have hphases := of_decide_eq_true hphases
  obtain ⟨call, hcall, hphase⟩ : ∃ call ∈ w.calls,
      call.phase = .returned (racingDb.newRow "t1" "email" "tenant.acme.email") := by
    apply List.mem_map.mp
    rw [hphases]
    exact List.mem_cons_self
  exact ⟨w, hphases, (control_calls_agree (sampleConfig 3) htenant hrun).2.1 call hcall _ hphase⟩

end QueueControls

end NotificationPlatform
