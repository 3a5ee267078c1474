import NotificationPlatform.HandlerCalls

/-!
# The lifetime of API keys

`CreateAPIKey` turns the duration of the request into a time, the insertion stores the time in a
column that may be null, `RevokeAPIKey` marks the row, and `VerifyAPIKey` compares the columns with
the clock of the database. A duration that does not parse leaves the column null, as an empty one
does.
-/

namespace NotificationPlatform

open Lib Lib.Sql

structure APIKeyPrincipal where
  keyID : String
  tenantID : String
  scopes : List String

def Value.toText : Value → String
  | .text s => s
  | _ => ""

def Value.parseStringJSON : Value → List String
  | .json j => Json.toStrings (some j)
  | _ => []

/-- `value > now()`, which does not hold of a null value. -/
def Value.after (now : Int) : Value → Bool
  | .time t => decide (now < t)
  | _ => false

def unrevoked (row : Row Value) : Bool :=
  (row "status").same (.text "active") && (row "revoked_at").isNull

def unexpired (now : Int) (expiresAt : Value) : Bool := expiresAt.isNull || expiresAt.after now

def verifies (hash : String) (now : Int) (row : Row Value) : Bool :=
  (row "key_hash").same (.text hash) && unrevoked row && unexpired now (row "expires_at")

def verifyAPIKey (cfg : AdminConfig) (env : Nat → AdminOutcome) (rawKey : String)
    (s : AdminState) : Option APIKeyPrincipal × AdminState :=
  let o := env s.calls
  let s := { s with calls := s.calls + 1 }
  if o.fail then (none, s)
  else
    match (s.db .tenantAPIKeys).find? (verifies (cfg.hashSecret rawKey) o.now) with
    | none => (none, s)
    | some row =>
        let principal : APIKeyPrincipal := ⟨(row "id").toText, (row "tenant_id").toText,
          (row "scopes_json").parseStringJSON⟩
        (some principal, (s.call env (.exec (.update .tenantAPIKeys
          [("last_used_at", .now), ("updated_at", .now)] [("id", .param 1)])
          [.text principal.keyID])).2)

inductive KeyRequest where
  | revoke (p : Principal) (id : String)
  | verify (rawKey : String)

/-- Serve a request; the first result says whether the answer is that the key `key` is revoked. -/
def KeyRequest.serve (cfg : AdminConfig) (env : Nat → AdminOutcome) (key : String) :
    KeyRequest → AdminState → Bool × AdminState
  | .revoke p id, s =>
      let r := (revokeAPIKey p id).eval (AdminState.call env) s
      (r.1.status == 200 && Uuid.read id == some key, r.2)
  | .verify rawKey, s => (false, (verifyAPIKey cfg env rawKey s).2)

/-- Serve requests in order; the first result says whether one of them revoked the key. -/
def serveKeyRequests (cfg : AdminConfig) (env : Nat → AdminOutcome) (key : String) :
    List KeyRequest → AdminState → Bool × AdminState
  | [], s => (false, s)
  | r :: rest, s =>
      let first := r.serve cfg env key s
      let others := serveKeyRequests cfg env key rest first.2
      (first.1 || others.1, others.2)

/-- The answer of `CreateAPIKey` carries a key. -/
structure JsonResponse.CarriesKey (r : JsonResponse) (id rawKey : String) : Prop where
  status : r.status = 201
  id : r.body.field? "id" = some (.str id)
  key : r.body.field? "api_key" = some (.str rawKey)

/-- Whatever requests follow the creation of the key and whenever it is presented: it is accepted
when none of them revoked it and the duration asked for, if any, has not passed since `created`. -/
def LivesAsRequested (cfg : AdminConfig) (created : Int) (expiresIn id rawKey : String)
    (s : AdminState) : Prop :=
  ∀ (env : Nat → AdminOutcome) (later : List KeyRequest),
    let r := serveKeyRequests cfg env id later s
    (env r.2.calls).fail = false →
      ((verifyAPIKey cfg env rawKey r.2).1.isSome = true ↔ r.1 = false ∧
        (expiresIn = "" ∨ ∃ d, cfg.parseDuration expiresIn = some d ∧
          (env r.2.calls).now < created + d))

structure IssuedKey where
  id : String
  tenant : Value
  hash : String
  expiresAt : Value

def keyColumns : List String := ["id", "tenant_id", "key_hash", "expires_at"]

/-- The table holds the key, in rows that only this key has, revoked or not. -/
structure IssuedKey.Held (k : IssuedKey) (revoked : Bool) (rows : List (Row Value)) : Prop where
  found : ∃ row ∈ rows, row "key_hash" = .text k.hash
  row : ∀ row ∈ rows, row "key_hash" = .text k.hash →
    row "id" = .text k.id ∧ row "tenant_id" = k.tenant ∧ row "expires_at" = k.expiresAt ∧
      unrevoked row = !revoked
  own : ∀ row ∈ rows, row "id" = .text k.id → row "key_hash" = .text k.hash

section

variable {k : IssuedKey} {revoked : Bool} {rows : List (Row Value)}

theorem same_text_iff {v : Value} {text : String} :
    v.same (.text text) = true ↔ v = .text text := by
  constructor
  · exact Value.eq_of_same
  · rintro rfl
    simp [Value.same]

theorem IssuedKey.Held.any_verifies (h : k.Held revoked rows) (now : Int) :
    (∃ row ∈ rows, verifies k.hash now row = true) ↔
      revoked = false ∧ unexpired now k.expiresAt = true := by
  constructor
  · rintro ⟨row, hrow, hverifies⟩
    simp only [verifies, Bool.and_eq_true, same_text_iff] at hverifies
    obtain ⟨⟨hhash, hlive⟩, htime⟩ := hverifies
    obtain ⟨-, -, hexpires, hstatus⟩ := h.row row hrow hhash
    rw [hstatus] at hlive
    rw [hexpires] at htime
    exact ⟨by simpa using hlive, htime⟩
  · rintro ⟨hrevoked, htime⟩
    obtain ⟨row, hrow, hhash⟩ := h.found
    obtain ⟨-, -, hexpires, hstatus⟩ := h.row row hrow hhash
    refine ⟨row, hrow, ?_⟩
    simp only [verifies, Bool.and_eq_true, same_text_iff]
    refine ⟨⟨hhash, ?_⟩, ?_⟩
    · rw [hstatus, hrevoked]
      rfl
    · rw [hexpires]
      exact htime

theorem IssuedKey.Held.update {revoked' : Bool} {sets conds : List (String × Value)}
    (h : k.Held revoked rows) (hsets : ∀ column ∈ keyColumns, column ∉ sets.map Prod.fst)
    (hstatus : ∀ row ∈ rows, row "key_hash" = .text k.hash →
      unrevoked (if adminEngine.selects conds row then assign sets row else row) = !revoked') :
    k.Held revoked' (rows.map fun row =>
      if adminEngine.selects conds row then assign sets row else row) := by
  have hframe : ∀ column ∈ keyColumns, ∀ row : Row Value,
      (if adminEngine.selects conds row then assign sets row else row) column = row column := by
    intro column hcolumn row
    split
    · exact assign_of_notMem (hsets column hcolumn)
    · rfl
  have hhash := hframe "key_hash" (by decide)
  have hid := hframe "id" (by decide)
  constructor
  · obtain ⟨row, hrow, heq⟩ := h.found
    exact ⟨_, List.mem_map_of_mem hrow, (hhash row).trans heq⟩
  · intro row' hrow' heq
    obtain ⟨row, hrow, rfl⟩ := List.mem_map.mp hrow'
    have hkey := (hhash row).symm.trans heq
    obtain ⟨hrowid, htenant, hexpires, -⟩ := h.row row hrow hkey
    exact ⟨(hid row).trans hrowid, (hframe "tenant_id" (by decide) row).trans htenant,
      (hframe "expires_at" (by decide) row).trans hexpires, hstatus row hrow hkey⟩
  · intro row' hrow' heq
    obtain ⟨row, hrow, rfl⟩ := List.mem_map.mp hrow'
    exact (hhash row).trans (h.own row hrow ((hid row).symm.trans heq))

theorem IssuedKey.Held.selects_eq (h : k.Held revoked rows) {conds : List (String × Value)}
    (hconds : ∀ column ∈ conds.map Prod.fst, column = "id" ∨ column = "tenant_id")
    {row row' : Row Value} (hrow : row ∈ rows) (hrow' : row' ∈ rows)
    (hhash : row "key_hash" = .text k.hash) (hhash' : row' "key_hash" = .text k.hash) :
    adminEngine.selects conds row = adminEngine.selects conds row' := by
  obtain ⟨hid, htenant, -⟩ := h.row row hrow hhash
  obtain ⟨hid', htenant', -⟩ := h.row row' hrow' hhash'
  apply Engine.selects_congr
  intro column hcolumn
  rcases hconds column hcolumn with rfl | rfl
  · rw [hid, hid']
  · rw [htenant, htenant']

variable {env : Nat → AdminOutcome} {s : AdminState}

theorem IssuedKey.Held.revoke (h : k.Held revoked (s.db .tenantAPIKeys)) (cfg : AdminConfig)
    (p : Principal) (id : String) :
    let r := (KeyRequest.revoke p id).serve cfg env k.id s
    k.Held (revoked || r.1) (r.2.db .tenantAPIKeys) := by
  dsimp only [KeyRequest.serve, revokeAPIKey]
  rcases @update_answer env s .tenantAPIKeys (by decide) _ _ _ "revoke failed" "api key not found"
    ⟨"", p.userText, "tenant_user", "api_key.revoke", "tenant_api_key", id⟩ "api key revoked" with
    ⟨hstatus, hrows⟩ | ⟨hstatus, sets, conds, hsets, hconds, ⟨hit, hhit, hselected⟩, hrows⟩
  · rw [hrows, beq_eq_false_iff_ne.mpr hstatus]
    simpa using h
  rw [hrows, hstatus]
  have hcolumns := Engine.bound_columns hsets
  obtain ⟨u, hu, hhitid⟩ := AdminDb.selected_text hconds hselected (by decide)
    (n := 0) (List.mem_append_left _ (List.mem_singleton.mpr rfl)) rfl
  have hread : (200 == 200 && Uuid.read id == some k.id) = decide (u = k.id) := by
    rw [hu]
    by_cases heq : u = k.id <;> simp [heq]
  rw [hread]
  apply h.update
  · rw [hcolumns]
    decide
  intro row hrow hhash
  obtain ⟨hid, -, -, hlive⟩ := h.row row hrow hhash
  by_cases hkey : u = k.id
  · -- the row that is selected is one of the key, so that all are
    have hhithash := h.own hit hhit (hkey ▸ hhitid)
    have hcondcolumns : ∀ column ∈ conds.map Prod.fst, column = "id" ∨ column = "tenant_id" := by
      rw [Engine.bound_columns hconds]
      cases hplatform : p.isPlatform <;> simp [tenantCond, hplatform]
    have hsame := h.selects_eq hcondcolumns hrow hhit hhash hhithash
    rw [if_pos (hsame.trans hselected)]
    obtain ⟨v, hv, heval⟩ := Engine.exists_bound hsets
      (List.mem_cons_self : ("status", Term.const (Value.text "revoked")) ∈ _)
    obtain rfl : Value.text "revoked" = v := by
      simpa [Term.eval, adminEngine, readColumn, uuidColumns] using heval
    have hassign : assign sets row "status" = .text "revoked" := by
      apply assign_of_mem _ hv
      rw [hcolumns]
      decide
    simp [unrevoked, hassign, Value.same, hkey]
  · have hskip : adminEngine.selects conds row ≠ true := by
      intro hselects
      obtain ⟨u', hu', hid'⟩ := AdminDb.selected_text hconds hselects (by decide)
        (n := 0) (List.mem_append_left _ (List.mem_singleton.mpr rfl)) rfl
      have huu : u = u' := Option.some.inj (hu.symm.trans hu')
      have hidk : k.id = u' := Value.text.inj (hid.symm.trans hid')
      exact hkey (huu.trans hidk.symm)
    rw [if_neg hskip, hlive]
    simp [hkey]

theorem IssuedKey.Held.verify (h : k.Held revoked (s.db .tenantAPIKeys)) (cfg : AdminConfig)
    (rawKey : String) : k.Held revoked ((verifyAPIKey cfg env rawKey s).2.db .tenantAPIKeys) := by
  unfold verifyAPIKey
  dsimp only
  split
  · exact h
  split
  · exact h
  · rcases call_cases env (.exec (.update .tenantAPIKeys [("last_used_at", .now),
      ("updated_at", .now)] [("id", .param 1)]) [.text _]) { s with calls := s.calls + 1 } with
      ⟨e, heq⟩ | ⟨n, db', -, hperform, heq⟩
    · rw [heq]
      exact h
    · rw [heq]
      obtain ⟨sets, conds, hsets, -, rfl⟩ := perform_update hperform
      dsimp only
      rw [Engine.filterMap_updated]
      have hcolumns := Engine.bound_columns hsets
      apply h.update
      · rw [hcolumns]
        decide
      intro row hrow hhash
      obtain ⟨-, -, -, hlive⟩ := h.row row hrow hhash
      rw [← hlive]
      split
      · have hstatus : assign sets row "status" = row "status" := by
          apply assign_of_notMem
          rw [hcolumns]
          decide
        have hrevoked : assign sets row "revoked_at" = row "revoked_at" := by
          apply assign_of_notMem
          rw [hcolumns]
          decide
        simp [unrevoked, hstatus, hrevoked]
      · rfl

theorem IssuedKey.Held.serveKeyRequests (h : k.Held revoked (s.db .tenantAPIKeys))
    (cfg : AdminConfig) (later : List KeyRequest) :
    let r := serveKeyRequests cfg env k.id later s
    k.Held (revoked || r.1) (r.2.db .tenantAPIKeys) := by
  induction later generalizing revoked s with
  | nil => simpa [NotificationPlatform.serveKeyRequests] using h
  | cons r rest ih =>
      dsimp only [NotificationPlatform.serveKeyRequests]
      have hfirst : k.Held (revoked || (r.serve cfg env k.id s).1)
          ((r.serve cfg env k.id s).2.db .tenantAPIKeys) := by
        cases r with
        | revoke p id => exact h.revoke cfg p id
        | verify rawKey =>
            have hverify := @IssuedKey.Held.verify k revoked env s h cfg rawKey
            simpa [KeyRequest.serve] using hverify
      rw [← Bool.or_assoc]
      exact ih hfirst

theorem IssuedKey.Held.verifyAPIKey_iff (h : k.Held revoked (s.db .tenantAPIKeys))
    {cfg : AdminConfig} {rawKey : String} (hhash : cfg.hashSecret rawKey = k.hash)
    (hok : (env s.calls).fail = false) :
    (verifyAPIKey cfg env rawKey s).1.isSome = true ↔
      revoked = false ∧ unexpired (env s.calls).now k.expiresAt = true := by
  rw [← h.any_verifies]
  unfold verifyAPIKey
  dsimp only
  rw [hok, hhash]
  split
  · next hfalse => simp at hfalse
  split
  · next hnone =>
      have hall := List.find?_eq_none.mp hnone
      simpa using hall
  · next row hsome =>
      simp only [Option.isSome_some, true_iff]
      exact ⟨row, List.mem_of_find?_eq_some hsome, List.find?_some hsome⟩

def Value.ofTime (expiresAt : Option Int) : Value := (expiresAt.map Value.time).getD .null

theorem pairwiseNot_append {α : Type} {related : α → α → Bool} {xs : List α} {y : α}
    (h : pairwiseNot related (xs ++ [y]) = true) : ∀ x ∈ xs, related x y = false := by
  induction xs with
  | nil => simp
  | cons x xs ih =>
      simp only [List.cons_append, pairwiseNot, Bool.and_eq_true, Bool.not_eq_true',
        List.any_eq_false] at h
      obtain ⟨hfirst, hrest⟩ := h
      intro z hz
      rcases List.mem_cons.mp hz with rfl | hz
      · simpa using hfirst y (by simp)
      · exact ih hrest z hz

theorem IssuedKey.held_insert {db db' : AdminDb} {row : Row Value} {k : IssuedKey}
    (h : adminEngine.insert db .tenantAPIKeys row = some db') (hid : row "id" = .text k.id)
    (htenant : row "tenant_id" = k.tenant) (hhash : row "key_hash" = .text k.hash)
    (hexpires : row "expires_at" = k.expiresAt) (hlive : unrevoked row = true) :
    k.Held false (db' .tenantAPIKeys) := by
  have hvalid : AdminTable.tenantAPIKeys.valid (db .tenantAPIKeys ++ [row]) = true := by
    by_contra hinvalid
    have hengine : adminEngine.valid .tenantAPIKeys (db .tenantAPIKeys ++ [row]) ≠ true := hinvalid
    simp [Engine.insert, hengine] at h
  have hunique : pairwiseNot (agreeOn ["key_hash"]) (db .tenantAPIKeys ++ [row]) = true := by
    simp only [AdminTable.valid, AdminTable.unique, Bool.and_eq_true, List.all_cons,
      List.all_nil, Bool.and_true] at hvalid
    exact hvalid.1.2
  obtain ⟨hnew, rfl⟩ := adminEngine.insert_cases h
  dsimp only
  rw [if_pos rfl]
  constructor
  · exact ⟨row, by simp, hhash⟩
  · intro r hr hrhash
    rcases List.mem_append.mp hr with hr | hr
    · have hdiffers := pairwiseNot_append hunique r hr
      simp [agreeOn, hrhash, hhash, Value.same] at hdiffers
    · obtain rfl := List.mem_singleton.mp hr
      exact ⟨hid, htenant, hexpires, by simpa using hlive⟩
  · intro r hr hrid
    rcases List.mem_append.mp hr with hr | hr
    · have hdiffers : (r "id").same (row "id") = false := hnew r hr
      simp [hrid, hid, Value.same] at hdiffers
    · obtain rfl := List.mem_singleton.mp hr
      exact hhash

/-- The columns of the statement of `GenerateAPIKey`. -/
private def keyValues : Terms Value :=
  [("tenant_id", .param 1), ("name", .param 2), ("key_hash", .param 3), ("scopes_json", .param 4),
    ("created_by", .param 5), ("expires_at", .param 6), ("status", .const (.text "active"))]

private theorem newKey_columns {clock tenant name scopes createdBy : Value} {hash : String}
    {expiresAt : Option Int} {bound : List (String × Value)}
    (hbound : adminEngine.bind clock [tenant, name, .text hash, scopes, createdBy,
      Value.ofTime expiresAt] keyValues = some bound) (id : String) (now : Int) :
    let row := AdminTable.tenantAPIKeys.newRow id now bound
    row "key_hash" = .text hash ∧ row "expires_at" = Value.ofTime expiresAt ∧
      unrevoked row = true := by
  dsimp only
  have hnodup : (keyValues.map Prod.fst).Nodup := by decide
  have hhash := newRow_of_bind .tenantAPIKeys id now hbound hnodup
    (show ("key_hash", .param 3) ∈ keyValues by simp [keyValues]) (by decide)
  have hexpires := newRow_of_bind .tenantAPIKeys id now hbound hnodup
    (show ("expires_at", .param 6) ∈ keyValues by simp [keyValues]) (by decide)
  have hstatus := newRow_of_bind .tenantAPIKeys id now hbound hnodup
    (show ("status", .const (.text "active")) ∈ keyValues by simp [keyValues]) (by decide)
  have hrevoked : AdminTable.tenantAPIKeys.newRow id now bound "revoked_at" = .null := by
    apply newRow_of_notMem (by decide)
    rw [Engine.bound_columns hbound]
    decide
  refine ⟨?_, ?_, ?_⟩
  · simpa [Term.eval, readColumn, uuidColumns] using hhash.symm
  · cases expiresAt <;> simpa [Term.eval, readColumn, Value.ofTime] using hexpires.symm
  · have hactive : AdminTable.tenantAPIKeys.newRow id now bound "status" = .text "active" := by
      simpa [Term.eval, readColumn, uuidColumns] using hstatus.symm
    simp [unrevoked, hactive, hrevoked, Value.same, Value.isNull]

theorem generateAPIKey_held {cfg : AdminConfig} {tenantID name createdBy id raw : String}
    {scopes : List String} {expiresAt : Option Int} {s' : AdminState}
    (h : (generateAPIKey cfg tenantID name createdBy scopes expiresAt).eval
      (AdminState.call env) s = (.ok (id, raw), s')) :
    ∃ tenant, IssuedKey.Held ⟨id, tenant, cfg.hashSecret raw, Value.ofTime expiresAt⟩ false
      (s'.db .tenantAPIKeys) := by
  unfold generateAPIKey at h
  rw [Prog.perform_bind, Prog.eval_call] at h
  rcases call_cases env (.randomToken "ntk") s with ⟨e, heq⟩ | ⟨key, db₁, -, -, heq⟩
  · rw [heq] at h
    simp at h
  rw [heq] at h
  dsimp only at h
  rw [insertRow, Prog.perform_bind, Prog.eval_call] at h
  rcases call_cases env (.insert .tenantAPIKeys _ _) ⟨db₁, s.calls + 1⟩ with
    ⟨e, heq'⟩ | ⟨newID, db₂, -, hperform, heq'⟩
  · rw [heq'] at h
    simp at h
  rw [heq'] at h
  simp only [Prog.pure_eq, Prog.eval_ret, Prod.mk.injEq, Except.ok.injEq] at h
  obtain ⟨⟨rfl, rfl⟩, rfl⟩ := h
  obtain ⟨bound, hbound, rfl, hinsert⟩ := perform_insert hperform
  obtain ⟨hhash, hexpires, hlive⟩ :=
    newKey_columns hbound (env (s.calls + 1)).id (env (s.calls + 1)).now
  refine ⟨_, IssuedKey.held_insert hinsert ?_ rfl hhash ?_ hlive⟩
  · rfl
  · exact hexpires

def keyExpiry (cfg : AdminConfig) (now : Int) (expiresIn : String) : Option Int :=
  if expiresIn = "" then none else (cfg.parseDuration expiresIn).map (now + ·)

theorem unexpired_keyExpiry (cfg : AdminConfig) (now t : Int) (expiresIn : String) :
    unexpired t (Value.ofTime (keyExpiry cfg now expiresIn)) = true ↔
      expiresIn = "" ∨ cfg.parseDuration expiresIn = none ∨
        ∃ d, cfg.parseDuration expiresIn = some d ∧ t < now + d := by
  unfold keyExpiry
  by_cases hempty : expiresIn = ""
  · simp [hempty, unexpired, Value.ofTime, Value.isNull]
  · cases hparse : cfg.parseDuration expiresIn with
    | none => simp [hempty, unexpired, Value.ofTime, Value.isNull]
    | some d => simp [hempty, unexpired, Value.ofTime, Value.isNull, Value.after]

theorem createAPIKey_held {cfg : AdminConfig} {now : Int} {p : Principal} {req : NewAPIKey}
    {r : JsonResponse} {s' : AdminState} {id rawKey : String}
    (h : (createAPIKey cfg now p req).eval (AdminState.call env) s = (r, s'))
    (hkey : r.CarriesKey id rawKey) :
    ∃ tenant, IssuedKey.Held ⟨id, tenant, cfg.hashSecret rawKey,
      Value.ofTime (keyExpiry cfg now req.expiresIn)⟩ false (s'.db .tenantAPIKeys) := by
  -- only an answer with status 201 carries a key
  have hrefused : ∀ status message, status ≠ 201 → r ≠ JsonResponse.error status message := by
    rintro status message hstatus rfl
    exact hstatus hkey.status
  unfold createAPIKey at h
  dsimp only at h
  split at h
  · exact absurd (Prod.mk.inj h).1.symm (hrefused 400 _ (by decide))
  split at h
  · exact absurd (Prod.mk.inj h).1.symm (hrefused 400 _ (by decide))
  rw [Prog.eval_bind] at h
  generalize hgenerated : (generateAPIKey cfg (effectiveTenant p req.tenantID) req.name p.userText
    req.scopes (if req.expiresIn = "" then none
      else (cfg.parseDuration req.expiresIn).map (now + ·))).eval (AdminState.call env) s = g at h
  obtain ⟨answer, s₁⟩ := g
  cases answer with
  | error e => exact absurd (Prod.mk.inj h).1.symm (hrefused 500 _ (by decide))
  | ok answer =>
      obtain ⟨newID, raw⟩ := answer
      obtain ⟨tenant, hheld⟩ := generateAPIKey_held hgenerated
      have hids : newID = id ∧ raw = rawKey := by
        have hid := hkey.id
        have hraw := hkey.key
        rw [← (Prod.mk.inj h).1] at hid hraw
        exact ⟨by simpa [Json.field?] using hid, by simpa [Json.field?] using hraw⟩
      have hframe : s'.db .tenantAPIKeys = s₁.db .tenantAPIKeys := by
        rw [← (Prod.mk.inj h).2]
        exact audit_frame _ (by decide)
      rw [hframe, ← hids.1, ← hids.2]
      exact ⟨tenant, hheld⟩

/-- A key lives exactly as long as asked for if and only if the duration asked for is empty or
parses: one that does not parse gives a key that never expires. -/
theorem apiKey_livesAsRequested_iff {cfg : AdminConfig} {now : Int} {p : Principal}
    {req : NewAPIKey} {r : JsonResponse} {s' : AdminState} {id rawKey : String}
    (h : (createAPIKey cfg now p req).eval (AdminState.call env) s = (r, s'))
    (hkey : r.CarriesKey id rawKey) :
    LivesAsRequested cfg now req.expiresIn id rawKey s' ↔
      req.expiresIn = "" ∨ (cfg.parseDuration req.expiresIn).isSome = true := by
  obtain ⟨tenant, hheld⟩ := createAPIKey_held h hkey
  -- when the key is accepted after the later requests
  have haccepted : ∀ (env : Nat → AdminOutcome) (later : List KeyRequest),
      let r := serveKeyRequests cfg env id later s'
      (env r.2.calls).fail = false →
        ((verifyAPIKey cfg env rawKey r.2).1.isSome = true ↔ r.1 = false ∧
          (req.expiresIn = "" ∨ cfg.parseDuration req.expiresIn = none ∨
            ∃ d, cfg.parseDuration req.expiresIn = some d ∧ (env r.2.calls).now < now + d)) := by
    intro env later
    dsimp only
    intro hok
    have hlater := @IssuedKey.Held.serveKeyRequests _ _ env _ hheld cfg later
    rw [hlater.verifyAPIKey_iff rfl hok, unexpired_keyExpiry, Bool.false_or]
  constructor
  · intro hlives
    by_contra hneither
    rw [not_or] at hneither
    obtain ⟨hempty, hparse⟩ := hneither
    have hnone : cfg.parseDuration req.expiresIn = none := by simpa using hparse
    -- the key is accepted at once, and no duration was asked for that has not passed
    have hasked := hlives (fun _ => {}) [] rfl
    rw [haccepted (fun _ => {}) [] rfl] at hasked
    have hlive := (hasked.mp ⟨rfl, .inr (.inl hnone)⟩).2
    simp [hempty, hnone] at hlive
  · intro hduration env later
    dsimp only
    intro hok
    rw [haccepted env later hok]
    apply and_congr_right
    intro _
    rcases hduration with hempty | hsome
    · simp [hempty]
    · obtain ⟨d, hd⟩ := Option.isSome_iff_exists.mp hsome
      simp [hd]

end

def hourConfig : AdminConfig :=
  ⟨fun raw => raw, fun text => if text = "720h" then some 2592000 else none, fun _ => ""⟩

/-- The answer to a platform administrator who asks for a key, and the state after it. -/
def keyFor (expiresIn : String) : JsonResponse × AdminState :=
  (createAPIKey hourConfig 0 ⟨1, "", true, []⟩
      ⟨"11111111-1111-1111-1111-111111111111", "ci", [], expiresIn⟩).eval
    (AdminState.call fun _ => ⟨false, "22222222-2222-2222-2222-222222222222", "ntk_1", 0⟩)
    ⟨fun _ => [], 0⟩

theorem key_for_720h : LivesAsRequested hourConfig 0 "720h"
    "22222222-2222-2222-2222-222222222222" "ntk_1" (keyFor "720h").2 :=
  (@apiKey_livesAsRequested_iff _ _ hourConfig 0 _
    ⟨"11111111-1111-1111-1111-111111111111", "ci", [], "720h"⟩ (keyFor "720h").1 (keyFor "720h").2
    _ _ rfl ⟨rfl, rfl, rfl⟩).mpr (.inr rfl)

/-- A key that is asked for with a duration in days is accepted after them. -/
theorem key_for_30d : (keyFor "30d").1.CarriesKey "22222222-2222-2222-2222-222222222222" "ntk_1" ∧
    ¬LivesAsRequested hourConfig 0 "30d" "22222222-2222-2222-2222-222222222222" "ntk_1"
      (keyFor "30d").2 := by
  refine ⟨⟨rfl, rfl, rfl⟩, ?_⟩
  intro hlives
  have haccepted : (verifyAPIKey hourConfig (fun _ => { now := 31536000 }) "ntk_1"
      (keyFor "30d").2).1.isSome = true := rfl
  have hasked := ((hlives (fun _ => { now := 31536000 }) [] rfl).mp haccepted).2
  simp [hourConfig] at hasked

end NotificationPlatform
