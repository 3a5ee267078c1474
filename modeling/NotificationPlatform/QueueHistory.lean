import NotificationPlatform.Lib.Run
import NotificationPlatform.QueueNames

/-!
# Queue names over the history of slugs

A control keeps the name it got from the slug its tenant had at that moment. `queue_name` is
unique over all tenants, so a later call may find its name taken. Beside the tables a world
remembers, for every control, the slug and the generator its name came from.
-/

namespace NotificationPlatform

open Lib

def Db.appendControl (db : Db) (tenantID channel name : String) : Except Err Db :=
  if db.controls.any (fun c => c.queueName == name) then .error .driver
  else .ok { db with
    controls := db.controls ++ [⟨db.nextId, tenantID, channel, name, .active⟩]
    nextId := db.nextId + 1 }

/-- One row of the backfill: `ON CONFLICT (tenant_id, channel) DO NOTHING`. -/
def Db.backfillRow (lower : Char → Char) (db : Db) (row : TenantChannel) : Except Err Db :=
  match db.tenants.find? (fun t => t.id == row.tenantID) with
  | none => .ok db
  | some tenant =>
      match db.findControl row.tenantID row.channel with
      | some _ => .ok db
      | none => db.appendControl row.tenantID row.channel (backfillName lower tenant.slug row.channel)

/-- The statement at the head of `ListQueueControls`. Its error is dropped, and a statement that
fails inserts none of its rows. -/
def Db.backfillControls (lower : Char → Char) (db : Db) : Db :=
  match db.channels.foldlM (Db.backfillRow lower) db with
  | .ok db' => db'
  | .error _ => db

structure Naming where
  tenantID : String
  channel : String
  slug : String
  byList : Bool

/-- The tables, and the naming of each control in the order of the rows. -/
structure QueueWorld where
  db : Db
  named : List Naming

inductive QueueEvent where
  | createTenant (id slug : String)
  | updateSlug (id slug : String)
  | setChannel (row : TenantChannel)
  | ensureControl (tenantID channel : String)
  | listQueueControls

def Db.slugOf (db : Db) (tenantID : String) : String :=
  ((db.tenants.find? fun t => t.id == tenantID).map Tenant.slug).getD ""

def Db.namings (db db' : Db) (byList : Bool) : List Naming :=
  (db'.controls.drop db.controls.length).map fun c =>
    ⟨c.tenantID, c.channel, db.slugOf c.tenantID, byList⟩

def QueueWorld.after (w : QueueWorld) (db : Db) (byList : Bool) : QueueWorld where
  db := db
  named := w.named ++ w.db.namings db byList

/-- `slug` is unique over the tenants: a statement that would repeat one is refused. -/
def Db.slugFree (db : Db) (id slug : String) : Bool :=
  db.tenants.all fun t => t.id == id || t.slug != slug

def QueueWorld.step (cfg : Config) (lower : Char → Char) (w : QueueWorld) :
    QueueEvent → QueueWorld
  | .createTenant id slug =>
      if w.db.tenants.any (fun t => t.id == id || t.slug == slug) then w
      else { w with db := { w.db with tenants := w.db.tenants ++ [⟨id, slug, .active⟩] } }
  | .updateSlug id slug =>
      if w.db.slugFree id slug then
        { w with db := { w.db with
          tenants := w.db.tenants.map fun t => if t.id == id then { t with slug := slug } else t } }
      else w
  | .setChannel row =>
      { w with db := { w.db with
        channels := (w.db.channels.filter fun tc =>
          !(tc.tenantID == row.tenantID && tc.channel == row.channel)) ++ [row] } }
  | .ensureControl tenantID channel =>
      match w.db.ensureControl cfg tenantID channel with
      | .ok (_, db) => w.after db false
      | .error _ => w
  | .listQueueControls => w.after (w.db.backfillControls lower) true

/-- The controls grew by rows named from the slugs of their tenants, and no name is there twice
unless one was before. -/
structure Db.Grows (name : String → String → String) (db db' : Db) : Prop where
  tenants : db'.tenants = db.tenants
  rows : ∃ new, db'.controls = db.controls ++ new ∧
    ∀ c ∈ new, c.queueName = name (db.slugOf c.tenantID) c.channel
  unique : (db.controls.map Control.queueName).Nodup → (db'.controls.map Control.queueName).Nodup

namespace Db

variable {cfg : Config} {lower : Char → Char} {name : String → String → String} {db db' db'' : Db}
  {tenantID channel : String}

theorem Grows.refl (db : Db) : Grows name db db where
  tenants := rfl
  rows := ⟨[], by simp⟩
  unique := id

theorem Grows.trans (h : Grows name db db') (h' : Grows name db' db'') : Grows name db db'' where
  tenants := h'.tenants.trans h.tenants
  rows := by
    obtain ⟨new, hnew, hname⟩ := h.rows
    obtain ⟨new', hnew', hname'⟩ := h'.rows
    have hslug : ∀ t, db'.slugOf t = db.slugOf t := by
      intro t
      rw [slugOf, slugOf, h.tenants]
    refine ⟨new ++ new', by rw [hnew', hnew, List.append_assoc], ?_⟩
    intro c hc
    rcases List.mem_append.mp hc with hc | hc
    · exact hname c hc
    · rw [hname' c hc, hslug]
  unique := fun hnodup => h'.unique (h.unique hnodup)

theorem slugOf_eq {tenant : Tenant}
    (h : db.tenants.find? (fun t => t.id == tenantID) = some tenant) :
    db.slugOf tenantID = tenant.slug := by
  simp [slugOf, h]

theorem grows_of_appendControl
    (h : db.appendControl tenantID channel (name (db.slugOf tenantID) channel) = .ok db') :
    Grows name db db' := by
  unfold appendControl at h
  split at h
  · simp at h
  · next hfree =>
      cases h
      have hfree : ∀ c ∈ db.controls, c.queueName ≠ name (db.slugOf tenantID) channel := by
        simpa using hfree
      refine ⟨rfl, ⟨_, rfl, by simp⟩, ?_⟩
      intro hnodup
      rw [List.map_append, List.nodup_append]
      refine ⟨hnodup, by simp, ?_⟩
      intro a ha b hb hab
      obtain ⟨c, hc, rfl⟩ := List.mem_map.mp ha
      have hb : b = name (db.slugOf tenantID) channel := by simpa using hb
      exact hfree c hc (hab.trans hb)

theorem ensureControl_eq (cfg : Config) (channel : String) {tenant : Tenant}
    (h : db.tenants.find? (fun t => t.id == tenantID) = some tenant) :
    (db.ensureControl cfg tenantID channel).map Prod.snd =
      match db.findControl tenantID channel with
      | some _ => .ok db
      | none => db.appendControl tenantID channel (nameForTenant cfg tenant.slug channel) := by
  unfold ensureControl appendControl
  rw [h]
  cases hfound : db.findControl tenantID channel with
  | some control => simp only [Except.map]
  | none =>
      dsimp only
      split <;> simp only [Except.map]

theorem grows_of_ensureControl {control : Control}
    (h : db.ensureControl cfg tenantID channel = .ok (control, db')) :
    Grows (nameForTenant cfg) db db' := by
  cases htenant : db.tenants.find? (fun t => t.id == tenantID) with
  | none => simp [ensureControl, htenant] at h
  | some tenant =>
      have heq := ensureControl_eq cfg channel htenant
      rw [h] at heq
      cases hfound : db.findControl tenantID channel with
      | some found =>
          simp only [hfound, Except.map, Except.ok.injEq] at heq
          subst heq
          exact Grows.refl _
      | none =>
          simp only [hfound, Except.map, ← slugOf_eq htenant] at heq
          exact grows_of_appendControl heq.symm

theorem grows_of_backfillRow {row : TenantChannel} (h : db.backfillRow lower row = .ok db') :
    Grows (backfillName lower) db db' := by
  unfold backfillRow at h
  split at h
  · cases h
    exact Grows.refl _
  · next tenant htenant =>
      split at h
      · cases h
        exact Grows.refl _
      · rw [← slugOf_eq htenant] at h
        exact grows_of_appendControl h

theorem grows_of_foldlM {rows : List TenantChannel}
    (h : rows.foldlM (Db.backfillRow lower) db = .ok db') : Grows (backfillName lower) db db' := by
  induction rows generalizing db with
  | nil =>
      cases h
      exact Grows.refl _
  | cons row rows ih =>
      rw [List.foldlM_cons] at h
      cases hrow : db.backfillRow lower row with
      | error e => simp [hrow, bind, Except.bind] at h
      | ok mid =>
          have hrest : rows.foldlM (Db.backfillRow lower) mid = .ok db' := by
            simpa [hrow, bind, Except.bind] using h
          exact (grows_of_backfillRow hrow).trans (ih hrest)

theorem grows_of_backfillControls (db : Db) :
    Grows (backfillName lower) db (db.backfillControls lower) := by
  unfold backfillControls
  split
  · next db' h => exact grows_of_foldlM h
  · exact Grows.refl _

end Db

/-- The part of a control's name that its slug gave it. -/
def Naming.slugPart (cfg : Config) (lower : Char → Char) (n : Naming) : List Char :=
  if n.byList then replaceRuns false (n.slug.toList.map lower)
  else NotificationPlatform.slugPart cfg n.slug

def Naming.channelPart (cfg : Config) (n : Naming) : List Char :=
  if n.byList then n.channel.toList else n.channel.toList.map cfg.toLower

/-- The two parts of a name of `NameForTenant` are those of the naming. -/
def Naming.Clashes (cfg : Config) (lower : Char → Char) (n : Naming) (slug channel : String) :
    Prop :=
  n.slugPart cfg lower = NotificationPlatform.slugPart cfg slug ∧
    n.channelPart cfg = channel.toList.map cfg.toLower

def Naming.queueName (cfg : Config) (lower : Char → Char) (n : Naming) : String :=
  NotificationPlatform.queueName (n.slugPart cfg lower) (n.channelPart cfg)

theorem Naming.queueName_eq_iff {cfg : Config} {lower : Char → Char} {n : Naming}
    {slug channel : String} :
    n.queueName cfg lower = nameForTenant cfg slug channel ↔ n.Clashes cfg lower slug channel := by
  have hdot : '.' ∉ n.slugPart cfg lower := by
    unfold Naming.slugPart
    split
    · exact dot_not_mem_replaceRuns _ _
    · exact dot_not_mem_slugPart _ _
  rw [nameForTenant_eq, Naming.queueName, queueName_inj hdot (dot_not_mem_slugPart _ _)]
  rfl

namespace QueueWorld

variable {cfg : Config} {lower : Char → Char} {w w' : QueueWorld}

/-- Every control has the name its naming gives, and no two controls share a name. -/
structure Recorded (cfg : Config) (lower : Char → Char) (w : QueueWorld) : Prop where
  rows : (w.db.controls.map fun c => (c.tenantID, c.channel, c.queueName)) =
    w.named.map fun n => (n.tenantID, n.channel, n.queueName cfg lower)
  unique : (w.db.controls.map Control.queueName).Nodup

theorem Recorded.after {db : Db} {byList : Bool} (h : Recorded cfg lower w)
    (hgrows : w.db.Grows (if byList then backfillName lower else nameForTenant cfg) db) :
    Recorded cfg lower (w.after db byList) := by
  obtain ⟨new, hnew, hname⟩ := hgrows.rows
  refine ⟨?_, hgrows.unique h.unique⟩
  have hnamings : w.db.namings db byList =
      new.map fun c => ⟨c.tenantID, c.channel, w.db.slugOf c.tenantID, byList⟩ := by
    rw [Db.namings, hnew, List.drop_left]
  rw [QueueWorld.after, hnamings, List.map_append, ← h.rows]
  simp only [hnew, List.map_append, List.map_map]
  congr 1
  apply List.map_congr_left
  intro c hc
  have hc := hname c hc
  cases byList with
  | false => simp [Naming.queueName, Naming.slugPart, Naming.channelPart, hc, nameForTenant_eq]
  | true => simp [Naming.queueName, Naming.slugPart, Naming.channelPart, hc, backfillName_eq]

theorem Recorded.step (h : Recorded cfg lower w) (e : QueueEvent) :
    Recorded cfg lower (w.step cfg lower e) := by
  cases e with
  | createTenant id slug =>
      simp only [QueueWorld.step]
      split
      · exact h
      · exact ⟨h.rows, h.unique⟩
  | updateSlug id slug =>
      simp only [QueueWorld.step]
      split
      · exact ⟨h.rows, h.unique⟩
      · exact h
  | setChannel row => exact ⟨h.rows, h.unique⟩
  | ensureControl tenantID channel =>
      simp only [QueueWorld.step]
      split
      · next control db hok =>
          apply Recorded.after h
          exact Db.grows_of_ensureControl hok
      · exact h
  | listQueueControls =>
      apply Recorded.after h
      exact Db.grows_of_backfillControls w.db

theorem Recorded.name_taken_iff (h : Recorded cfg lower w) (slug channel : String) :
    (w.db.controls.any fun c => c.queueName == nameForTenant cfg slug channel) = true ↔
      ∃ n ∈ w.named, n.Clashes cfg lower slug channel := by
  have hnames := congrArg (List.map fun row : String × String × String => row.2.2) h.rows
  simp only [List.map_map] at hnames
  have hmem : nameForTenant cfg slug channel ∈ w.db.controls.map Control.queueName ↔
      nameForTenant cfg slug channel ∈ w.named.map (Naming.queueName cfg lower) := by
    rw [show w.db.controls.map Control.queueName = w.named.map (Naming.queueName cfg lower) from hnames]
  simp only [List.any_eq_true, beq_iff_eq]
  simp only [List.mem_map, Naming.queueName_eq_iff] at hmem
  exact hmem

theorem Recorded.findControl_isSome_iff (h : Recorded cfg lower w) (tenantID channel : String) :
    (w.db.findControl tenantID channel).isSome = true ↔
      ∃ n ∈ w.named, n.tenantID = tenantID ∧ n.channel = channel := by
  have hpairs := congrArg (List.map fun row : String × String × String => (row.1, row.2.1)) h.rows
  simp only [List.map_map] at hpairs
  have hmem : (tenantID, channel) ∈ w.db.controls.map (fun c => (c.tenantID, c.channel)) ↔
      (tenantID, channel) ∈ w.named.map (fun n => (n.tenantID, n.channel)) := by
    rw [show w.db.controls.map (fun c => (c.tenantID, c.channel)) =
      w.named.map (fun n => (n.tenantID, n.channel)) from hpairs]
  simp only [List.mem_map, Prod.mk.injEq] at hmem
  rw [Db.findControl, List.find?_isSome]
  simpa using hmem

def Registered (w : QueueWorld) (tenantID : String) : Prop :=
  (w.db.tenants.any fun t => t.id == tenantID) = true

/-- A call for an existing tenant returns a control. -/
def Succeeds (cfg : Config) (w : QueueWorld) : QueueEvent → Prop
  | .ensureControl tenantID channel => w.Registered tenantID →
      ∃ control db, w.db.ensureControl cfg tenantID channel = .ok (control, db)
  | _ => True

/-- A call for an existing tenant is for a pair that was named before, or no naming of another
pair clashes with the slug the tenant has now. -/
def Unclashed (cfg : Config) (lower : Char → Char) (w : QueueWorld) : QueueEvent → Prop
  | .ensureControl tenantID channel => w.Registered tenantID →
      (∃ n ∈ w.named, n.tenantID = tenantID ∧ n.channel = channel) ∨
        ∀ n ∈ w.named, ¬n.Clashes cfg lower (w.db.slugOf tenantID) channel
  | _ => True

theorem Recorded.succeeds_iff (h : Recorded cfg lower w) (e : QueueEvent) :
    w.Succeeds cfg e ↔ w.Unclashed cfg lower e := by
  cases e with
  | createTenant id slug => exact Iff.rfl
  | updateSlug id slug => exact Iff.rfl
  | setChannel row => exact Iff.rfl
  | listQueueControls => exact Iff.rfl
  | ensureControl tenantID channel =>
      apply imp_congr_right
      intro hregistered
      obtain ⟨tenant, htenant⟩ : ∃ tenant, w.db.tenants.find? (fun t => t.id == tenantID) =
          some tenant := by
        rw [← Option.isSome_iff_exists, List.find?_isSome]
        simpa [Registered] using hregistered
      have hname := h.name_taken_iff tenant.slug channel
      rw [← h.findControl_isSome_iff, Db.slugOf_eq htenant]
      unfold Db.ensureControl
      rw [htenant]
      cases hfound : w.db.findControl tenantID channel with
      | some control => simp
      | none =>
          dsimp only
          split
          · next htaken => simpa using hname.mp htaken
          · next hfree =>
              have hnone : ¬∃ n ∈ w.named, n.Clashes cfg lower tenant.slug channel :=
                fun hclash => hfree (hname.mpr hclash)
              simpa using hnone

/-- A world before the first control: tenants with distinct identifiers and slugs. -/
structure Fresh (w : QueueWorld) : Prop where
  ids : (w.db.tenants.map Tenant.id).Nodup
  slugs : (w.db.tenants.map Tenant.slug).Nodup
  controls : w.db.controls = []
  named : w.named = []

/-- A run of requests and calls, each admitted by `ok` where it is made. -/
def RunOf (cfg : Config) (lower : Char → Char) (ok : QueueWorld → QueueEvent → Prop)
    (w : QueueWorld) (es : List QueueEvent) (w' : QueueWorld) : Prop :=
  Run (fun w e => some (w.step cfg lower e)) ok w es w'

theorem Fresh.recorded (h : w.Fresh) : Recorded cfg lower w where
  rows := by rw [h.controls, h.named]; rfl
  unique := by rw [h.controls]; exact List.nodup_nil

theorem RunOf.recorded {ok : QueueWorld → QueueEvent → Prop} {es : List QueueEvent}
    (hrun : w.RunOf cfg lower ok es w') (h : Recorded cfg lower w) : Recorded cfg lower w' := by
  apply Run.invariant hrun ?_ h
  intro s e s' hs _ hstep
  cases hstep
  exact hs.step e

/-- No two controls ever share a queue name, and every call of `EnsureControl` in a run succeeds
exactly when no call meets a clash with another pair's naming. -/
theorem queue_names_iff (hfresh : w.Fresh) {es : List QueueEvent}
    (hrun : w.RunOf cfg lower (fun _ _ => True) es w') :
    (w'.db.controls.map Control.queueName).Nodup ∧
      (w.RunOf cfg lower (Succeeds cfg) es w' ↔ w.RunOf cfg lower (Unclashed cfg lower) es w') := by
  have hkeep : ∀ ok : QueueWorld → QueueEvent → Prop, ∀ s e s', Recorded cfg lower s → ok s e →
      some (s.step cfg lower e) = some s' → Recorded cfg lower s' := by
    intro ok s e s' hs _ hstep
    cases hstep
    exact hs.step e
  refine ⟨(hrun.recorded hfresh.recorded).unique, ?_, ?_⟩
  · intro h
    exact Run.mono_of_invariant h hfresh.recorded (hkeep _) fun s e hs => (hs.succeeds_iff e).mp
  · intro h
    exact Run.mono_of_invariant h hfresh.recorded (hkeep _) fun s e hs => (hs.succeeds_iff e).mpr

def lookalikes : QueueWorld where
  db := { sampleDb with tenants := [⟨"t1", "acme", .active⟩, ⟨"t2", "Acme!", .active⟩] }
  named := []

theorem lookalikes_fresh : lookalikes.Fresh where
  ids := by decide
  slugs := by decide
  controls := rfl
  named := rfl

theorem queue_names_of_lookalikes :
    (((lookalikes.step (sampleConfig 3) Char.toLower (.ensureControl "t1" "email")).db.controls.map
      Control.queueName).Nodup) ∧
    (lookalikes.RunOf (sampleConfig 3) Char.toLower (Succeeds (sampleConfig 3))
        [.ensureControl "t1" "email"]
        (lookalikes.step (sampleConfig 3) Char.toLower (.ensureControl "t1" "email")) ↔
      lookalikes.RunOf (sampleConfig 3) Char.toLower (Unclashed (sampleConfig 3) Char.toLower)
        [.ensureControl "t1" "email"]
        (lookalikes.step (sampleConfig 3) Char.toLower (.ensureControl "t1" "email"))) :=
  queue_names_iff lookalikes_fresh (.cons trivial rfl (.nil _))

/-- The second tenant's first call finds its queue name taken by the first tenant. -/
theorem lookalike_refused : ¬∀ (w w' : QueueWorld) (es : List QueueEvent), w.Fresh →
    w.RunOf (sampleConfig 3) Char.toLower (fun _ _ => True) es w' →
      (w'.db.controls.map Control.queueName).Nodup ∧
        w.RunOf (sampleConfig 3) Char.toLower (Succeeds (sampleConfig 3)) es w' := by
  intro h
  obtain ⟨-, hrun⟩ := h lookalikes _ [.ensureControl "t1" "email", .ensureControl "t2" "email"]
    lookalikes_fresh (.cons trivial rfl (.cons trivial rfl (.nil _)))
  have hsplit : [QueueEvent.ensureControl "t1" "email", .ensureControl "t2" "email"] =
      [.ensureControl "t1" "email"] ++ .ensureControl "t2" "email" :: [] := rfl
  obtain ⟨u, u', hbefore, hok, -⟩ := Run.at_event hrun hsplit
  have hfirst : lookalikes.RunOf (sampleConfig 3) Char.toLower (fun _ _ => True)
      [.ensureControl "t1" "email"]
      (lookalikes.step (sampleConfig 3) Char.toLower (.ensureControl "t1" "email")) :=
    .cons trivial rfl (.nil _)
  obtain rfl := Run.unique hbefore hfirst
  obtain ⟨control, db, hensure⟩ := hok (by unfold Registered; decide +kernel)
  have hrefused : ((lookalikes.step (sampleConfig 3) Char.toLower
      (.ensureControl "t1" "email")).db.ensureControl (sampleConfig 3) "t2" "email").isOk = false := by
    decide +kernel
  rw [hensure] at hrefused
  cases hrefused

end QueueWorld

end NotificationPlatform
