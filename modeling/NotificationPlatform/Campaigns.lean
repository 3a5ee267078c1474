import Mathlib.Data.List.Find
import NotificationPlatform.HandlerCalls
import NotificationPlatform.Lib.Run

/-!
# The approval of campaigns

Five routes write the status of a campaign, each behind a permission of its own. None of them looks
at the status that is there: what a campaign can become is what the requests ask for.
-/

namespace NotificationPlatform

open Lib Lib.Sql

inductive CampaignRequest where
  | createCampaign (req : NewCampaign)
  | updateCampaign (id : String) (req : CampaignUpdate)
  | approveCampaign (id : String)
  | sendCampaign (id : String)
  | cancelCampaign (id : String)

namespace CampaignRequest

def toAdmin : CampaignRequest → AdminRequest
  | .createCampaign req => .createCampaign req
  | .updateCampaign id req => .updateCampaign id req
  | .approveCampaign id => .approveCampaign id
  | .sendCampaign id => .sendCampaign id
  | .cancelCampaign id => .cancelCampaign id

def permission : CampaignRequest → String
  | .createCampaign _ => "campaigns.create"
  | .updateCampaign _ _ => "campaigns.update"
  | .approveCampaign _ => "campaigns.approve"
  | .sendCampaign _ => "campaigns.send"
  | .cancelCampaign _ => "campaigns.cancel"

def asks : CampaignRequest → Option (String × String)
  | .createCampaign _ => none
  | .updateCampaign id req => if req.status = "" then none else some (id, req.status)
  | .approveCampaign id => some (id, "approved")
  | .sendCampaign id => some (id, "sending")
  | .cancelCampaign id => some (id, "cancelled")

end CampaignRequest

def serveCampaign (cfg : AdminConfig) (env : Nat → AdminOutcome) (p : Principal)
    (req : CampaignRequest) (s : AdminState) : JsonResponse × AdminState :=
  if hasPermission p req.permission then (serve cfg p req.toAdmin).eval (AdminState.call env) s
  else (.error 403 "forbidden", s)

def AdminDb.campaignStatus (db : AdminDb) (id : String) : Option Value :=
  ((db .campaigns).find? fun row => (row "id").same (.text id)).map fun row => row "status"

/-- A campaign is approved by `ApproveCampaign` alone, for a principal with the permission, is sent
only when it is approved, and stays cancelled. -/
structure Lawful (p : Principal) (req : CampaignRequest) (db db' : AdminDb) : Prop where
  approved : ∀ id, db'.campaignStatus id = some (.text "approved") →
    db.campaignStatus id ≠ some (.text "approved") →
      (∃ named, req = .approveCampaign named) ∧ hasPermission p "campaigns.approve" = true
  sending : ∀ id, db'.campaignStatus id = some (.text "sending") →
    db.campaignStatus id ≠ some (.text "sending") → db.campaignStatus id = some (.text "approved")
  cancelled : ∀ id, db.campaignStatus id = some (.text "cancelled") →
    db'.campaignStatus id = some (.text "cancelled")

def MayBecome (req : CampaignRequest) (old : Value) (status : String) : Prop :=
  (status = "approved" → (∃ named, req = .approveCampaign named) ∨ old = .text "approved") ∧
    (status = "sending" → old = .text "approved" ∨ old = .text "sending") ∧
    (old = .text "cancelled" → status = "cancelled")

/-- Every campaign that the request can write may take the status it asks for. -/
def Orderly (p : Principal) (req : CampaignRequest) (db : AdminDb) : Prop :=
  ∀ id status, req.asks = some (id, status) → ∀ row ∈ db .campaigns, mayWrite p id row →
    MayBecome req (row "status") status

section

variable {cfg : AdminConfig} {env : Nat → AdminOutcome} {p : Principal} {s : AdminState}

/-- Every campaign keeps its key, and its status unless the request may write it and asks for
another. -/
def Restated (p : Principal) (req : CampaignRequest) (rows rows' : List (Row Value)) : Prop :=
  ∃ f : Row Value → Row Value, rows' = rows.map f ∧ ∀ row ∈ rows, f row "id" = row "id" ∧
    (f row "status" = row "status" ∨ ∃ id status, req.asks = some (id, status) ∧
      mayWrite p id row ∧ f row "status" = .text status)

theorem Restated.of_eq {req : CampaignRequest} {rows rows' : List (Row Value)} (h : rows' = rows) :
    Restated p req rows rows' :=
  ⟨id, by simp [h], fun row _ => ⟨rfl, .inl rfl⟩⟩

/-- An update of the campaigns under an identifier, which sets the status at most to the one that
the request asks for. -/
theorem restated_of_update {req : CampaignRequest} {id : String} {sets conds : Terms Value}
    {args : List Value} {n : Nat} (hplain : Plain sets) (hnodup : (sets.map Prod.fst).Nodup)
    (hid : ("id", .param (n + 1)) ∈ conds) (harg : args[n]? = some (.text id))
    (hlimited : Limited p .campaigns conds args)
    (hstatus : "status" ∉ sets.map Prod.fst ∨ ∃ status k, req.asks = some (id, status) ∧
      ("status", .param (k + 1)) ∈ sets ∧ args[k]? = some (.text status))
    (failed missing : String) (event : AuditEvent) (done : String) :
    Restated p req (s.db .campaigns)
      (((write (.update .campaigns sets conds) args >>= fun r =>
        answerAffected r failed missing event done).eval (AdminState.call env) s).2.db
          .campaigns) := by
  rcases @update_rows env s .campaigns (by decide) sets conds args failed missing event done with
    hsame | ⟨bsets, bconds, hsets, hconds, hrows⟩
  · exact .of_eq hsame
  refine ⟨_, hrows, fun row _ => ?_⟩
  split
  · next hselects =>
      refine ⟨AdminDb.assign_plain hsets hplain row (by decide), ?_⟩
      rcases hstatus with hkept | ⟨status, k, hasks, hmem, hvalue⟩
      · left
        apply assign_of_notMem
        rw [Engine.bound_columns hsets]
        exact hkept
      · right
        refine ⟨id, status, hasks, mayWrite_of_selects rfl hconds hid harg hlimited hselects, ?_⟩
        obtain ⟨v, hv, heval⟩ := Engine.exists_bound hsets hmem
        have hread : Value.text status = v := by
          simpa [Term.eval, hvalue, adminEngine, readColumn, uuidColumns] using heval
        subst v
        apply assign_of_mem _ hv
        rw [Engine.bound_columns hsets]
        exact hnodup
  · exact ⟨rfl, .inl rfl⟩

theorem campaignStatusTransition_rows (id : String) (action : CampaignAction)
    {req : CampaignRequest} (hasks : req.asks = some (id, action.targetStatus)) :
    Restated p req (s.db .campaigns)
      (((campaignStatusTransition p id action).eval (AdminState.call env) s).2.db .campaigns) := by
  apply @restated_of_update env p s req id _ _ _ 0
  · simp [Plain, uuidColumns]
  · decide
  · simp
  · rfl
  · exact limited_tenantCond [("id", .param 1)] [.text id, _] rfl
  · exact .inr ⟨action.targetStatus, 1, hasks, by simp, rfl⟩

theorem updateCampaign_rows (id : String) (body : CampaignUpdate) :
    Restated p (.updateCampaign id body) (s.db .campaigns)
      (((updateCampaign p id body).eval (AdminState.call env) s).2.db .campaigns) := by
  have hbefore := (Builder.numbered_start.setText "name" (by decide) body.name).setText
    "description" (by decide) body.description
  have hbuilt := hbefore.setText "status" (by decide) body.status
  have hcolumns : ((((Builder.start.setText "name" body.name).setText "description"
      body.description).setText "status" body.status).limited p id).sets.map Prod.fst =
        (["updated_at"] ++ if body.name = "" then [] else ["name"]) ++
          (if body.description = "" then [] else ["description"]) ++
            if body.status = "" then [] else ["status"] := by
    rw [limited_sets, setText_columns, setText_columns, setText_columns]
    rfl
  obtain ⟨n, hid, harg⟩ := limited_id (p := p) hbuilt id
  apply restated_of_update (hbuilt.limited_plain p id) ?_ hid harg (hbuilt.limited p id rfl)
  · by_cases hstatus : body.status = ""
    · left
      rw [hcolumns]
      simp only [hstatus, if_true]
      split <;> split <;> decide
    · right
      obtain ⟨hmem, hvalue⟩ := setText_mem hbefore "status" hstatus
      refine ⟨body.status, _, by simp [CampaignRequest.asks, hstatus], ?_, limited_arg id hvalue⟩
      rw [limited_sets]
      exact hmem
  · rw [hcolumns]
    split <;> split <;> split <;> decide

theorem createCampaign_rows (req : NewCampaign) :
    let rows' := ((createCampaign cfg p req).eval (AdminState.call env) s).2.db .campaigns
    rows' = s.db .campaigns ∨
      ∃ row, rows' = s.db .campaigns ++ [row] ∧ row "status" = .text "draft" := by
  dsimp only
  unfold createCampaign
  dsimp only
  split
  · exact .inl rfl
  · rcases @insert_rows env s .campaigns (by decide) _ _ _ _ _ with
      hsame | ⟨bound, hbound, hrows⟩
    · exact .inl hsame
    · refine .inr ⟨_, hrows, ?_⟩
      have hcolumns := Engine.bound_columns hbound
      obtain ⟨v, hv, hvalue⟩ : ∃ v, ("status", v) ∈ bound ∧ _ :=
        @Engine.exists_bound _ _ _ _ _ _ _ hbound _ (.const (.text "draft")) (by simp)
      obtain rfl : Value.text "draft" = v := by
        simpa [Term.eval, adminEngine, readColumn, uuidColumns] using hvalue
      apply newRow_of_mem (by decide) _ hv
      rw [hcolumns]
      decide

theorem campaignStatus_of_restated {req : CampaignRequest} {db db' : AdminDb}
    (h : Restated p req (db .campaigns) (db' .campaigns)) (id : String) :
    db'.campaignStatus id = db.campaignStatus id ∨
      ∃ row ∈ db .campaigns, db.campaignStatus id = some (row "status") ∧
        ∃ named status, req.asks = some (named, status) ∧ mayWrite p named row ∧
          db'.campaignStatus id = some (.text status) := by
  obtain ⟨f, hrows, hf⟩ := h
  -- the key of a row stays, so that the same row is found
  have hfind : (db' .campaigns).find? (fun row => (row "id").same (.text id)) =
      ((db .campaigns).find? fun row => (row "id").same (.text id)).map f := by
    rw [hrows, List.find?_map]
    apply congrArg
    apply List.find?_congr
    intro row hrow
    simp only [Function.comp_apply, (hf row hrow).1]
  unfold AdminDb.campaignStatus
  rw [hfind]
  cases hfound : (db .campaigns).find? fun row => (row "id").same (.text id) with
  | none => exact .inl rfl
  | some row =>
      have hrow := List.mem_of_find?_eq_some hfound
      rcases (hf row hrow).2 with hsame | ⟨named, status, hasks, hmay, hstatus⟩
      · exact .inl (congrArg some hsame)
      · exact .inr ⟨row, hrow, rfl, named, status, hasks, hmay, congrArg some hstatus⟩

theorem lawful_of_changes {req : CampaignRequest} {db db' : AdminDb}
    (h : ∀ id, db'.campaignStatus id ≠ db.campaignStatus id →
      (db'.campaignStatus id = some (.text "approved") →
        (∃ named, req = .approveCampaign named) ∧ hasPermission p "campaigns.approve" = true) ∧
      (db'.campaignStatus id = some (.text "sending") →
        db.campaignStatus id = some (.text "approved")) ∧
      db.campaignStatus id ≠ some (.text "cancelled")) : Lawful p req db db' := by
  constructor
  · intro id hafter hbefore
    have hne : db'.campaignStatus id ≠ db.campaignStatus id := fun heq => hbefore (heq ▸ hafter)
    exact (h id hne).1 hafter
  · intro id hafter hbefore
    have hne : db'.campaignStatus id ≠ db.campaignStatus id := fun heq => hbefore (heq ▸ hafter)
    exact (h id hne).2.1 hafter
  · intro id hbefore
    by_contra hafter
    have hne : db'.campaignStatus id ≠ db.campaignStatus id :=
      fun heq => hafter (heq.trans hbefore)
    exact (h id hne).2.2 hbefore

theorem lawful_of_restated {req : CampaignRequest} {db db' : AdminDb}
    (hallowed : hasPermission p req.permission = true) (horderly : Orderly p req db)
    (h : Restated p req (db .campaigns) (db' .campaigns)) : Lawful p req db db' := by
  apply lawful_of_changes
  intro id hne
  rcases campaignStatus_of_restated h id with hsame | ⟨row, hrow, hold, named, status, hasks, hmay,
    hnew⟩
  · exact absurd hsame hne
  obtain ⟨happrove, hsend, hcancel⟩ := horderly named status hasks row hrow hmay
  -- the campaign takes a status other than its own
  have hother : row "status" ≠ .text status := by
    intro heq
    rw [hnew, hold, heq] at hne
    exact hne rfl
  rw [hnew, hold]
  refine ⟨?_, ?_, ?_⟩
  · intro heq
    obtain rfl : status = "approved" := by simpa using heq
    rcases happrove rfl with ⟨c, rfl⟩ | happroved
    · exact ⟨⟨c, rfl⟩, hallowed⟩
    · exact absurd happroved hother
  · intro heq
    obtain rfl : status = "sending" := by simpa using heq
    rcases hsend rfl with happroved | hsending
    · exact congrArg some happroved
    · exact absurd hsending hother
  · intro heq
    have hcancelled : row "status" = .text "cancelled" := Option.some.inj heq
    exact hother (hcancel hcancelled ▸ hcancelled)

theorem lawful_of_draft {req : CampaignRequest} {db db' : AdminDb} {row : Row Value}
    (h : db' .campaigns = db .campaigns ++ [row]) (hdraft : row "status" = .text "draft") :
    Lawful p req db db' := by
  apply lawful_of_changes
  intro id hne
  unfold AdminDb.campaignStatus at hne ⊢
  rw [h, List.find?_append] at hne ⊢
  cases hfound : (db .campaigns).find? fun r => (r "id").same (.text id) with
  | some old => simp [hfound] at hne
  | none =>
      by_cases hkey : (row "id").same (.text id) = true
      · simp [hkey, hdraft]
      · simp [hfound, hkey] at hne

theorem serveCampaign_lawful (req : CampaignRequest) (horderly : Orderly p req s.db) :
    Lawful p req s.db (serveCampaign cfg env p req s).2.db := by
  unfold serveCampaign
  split
  · next hallowed =>
      cases req with
      | createCampaign body =>
          rcases @createCampaign_rows cfg env p s body with
            hsame | ⟨row, hrows, hdraft⟩
          · exact lawful_of_restated hallowed horderly (.of_eq hsame)
          · exact lawful_of_draft hrows hdraft
      | updateCampaign id body =>
          exact lawful_of_restated hallowed horderly (updateCampaign_rows id body)
      | approveCampaign id =>
          exact lawful_of_restated hallowed horderly (campaignStatusTransition_rows id _ rfl)
      | sendCampaign id =>
          exact lawful_of_restated hallowed horderly (campaignStatusTransition_rows id _ rfl)
      | cancelCampaign id =>
          exact lawful_of_restated hallowed horderly (campaignStatusTransition_rows id _ rfl)
  · exact lawful_of_changes fun id hne => absurd rfl hne

end

/-- A request of a principal, with what the environment decides about its calls. -/
structure CampaignEvent where
  principal : Principal
  request : CampaignRequest
  env : Nat → AdminOutcome

namespace CampaignEvent

def step (cfg : AdminConfig) (s : AdminState) (e : CampaignEvent) : AdminState :=
  (serveCampaign cfg e.env e.principal e.request s).2

def KeepsOrder (cfg : AdminConfig) (s : AdminState) (e : CampaignEvent) : Prop :=
  Lawful e.principal e.request s.db (e.step cfg s).db

/-- A run of requests, each admitted by `ok` where it is made. -/
def RunOf (cfg : AdminConfig) (ok : AdminState → CampaignEvent → Prop) (s : AdminState)
    (es : List CampaignEvent) (s' : AdminState) : Prop :=
  Run (fun s e => some (step cfg s e)) ok s es s'

end CampaignEvent

/-- Approval cannot be bypassed by requests that ask only for a status the campaign may take. -/
theorem approval_kept {cfg : AdminConfig} {s s' : AdminState} {es : List CampaignEvent}
    (h : CampaignEvent.RunOf cfg (fun s e => Orderly e.principal e.request s.db) s es s') :
    CampaignEvent.RunOf cfg (CampaignEvent.KeepsOrder cfg) s es s' := by
  apply Run.mono h
  intro s e horderly
  exact serveCampaign_lawful e.request horderly

def draftID : String := "aaaaaaaa-0000-0000-0000-000000000000"

def sampleDraft : AdminState where
  db
    | .campaigns =>
        [rowOf [("id", .text draftID), ("tenant_id", .text firstTenant), ("name", .text "Spring"),
          ("status", .text "draft")]]
    | _ => []
  calls := 0

def approveDraft : CampaignEvent :=
  ⟨⟨7, firstTenant, false, ["campaigns.manage"]⟩, .approveCampaign draftID, fun _ => {}⟩

theorem approval_kept_of_approve : CampaignEvent.RunOf sampleAdminConfig
    (CampaignEvent.KeepsOrder sampleAdminConfig) sampleDraft [approveDraft]
    (approveDraft.step sampleAdminConfig sampleDraft) := by
  apply approval_kept
  apply Run.cons _ rfl (.nil _)
  intro id status hasks row hrow _
  obtain ⟨rfl, rfl⟩ : draftID = id ∧ "approved" = status := by
    simpa [approveDraft, CampaignRequest.asks] using hasks
  obtain rfl : row = _ := List.mem_singleton.mp hrow
  refine ⟨fun _ => .inl ⟨draftID, rfl⟩, by simp, ?_⟩
  intro hcancelled
  have hdraft : Value.text "draft" = .text "cancelled" := hcancelled
  simp at hdraft

def editDraft : CampaignEvent :=
  ⟨⟨8, firstTenant, false, ["campaigns.update"]⟩,
    .updateCampaign draftID ⟨"", "", "approved"⟩, fun _ => {}⟩

theorem status_of_check {status : Option Value} {v : Value}
    (h : (status.any fun w => w.same v) = true) : status = some v := by
  cases status with
  | none => simp at h
  | some w => exact congrArg some (Value.eq_of_same h)

theorem approval_bypassed : ¬∀ (cfg : AdminConfig) (s s' : AdminState) (es : List CampaignEvent),
    CampaignEvent.RunOf cfg (fun _ _ => True) s es s' →
      CampaignEvent.RunOf cfg (CampaignEvent.KeepsOrder cfg) s es s' := by
  intro h
  have hrun := h sampleAdminConfig sampleDraft _ [editDraft] (.cons trivial rfl (.nil _))
  cases hrun with
  | cons hlawful _ _ =>
      have hbefore : sampleDraft.db.campaignStatus draftID = some (.text "draft") :=
        status_of_check (by decide +kernel)
      have hafter : (editDraft.step sampleAdminConfig sampleDraft).db.campaignStatus draftID =
          some (.text "approved") :=
        status_of_check (by decide +kernel)
      obtain ⟨⟨named, hnamed⟩, -⟩ := hlawful.approved draftID hafter (by simp [hbefore])
      cases hnamed

end NotificationPlatform
