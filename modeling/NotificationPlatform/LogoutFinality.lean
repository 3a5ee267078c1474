import NotificationPlatform.ClientTab

/-!
# What comes after a logout

A logout clears the entries of the session. A refresh and a call of `/auth/me` write to the same
entries after an await, and neither looks whether the session is still the one it began in.
-/

namespace NotificationPlatform

open Lib

namespace ClientTab

def Tab.stale (t : Tab) (since : Nat) : Bool := t.signedOut && decide (since < t.logouts)

/-- No refresh and no call of `/auth/me` that was under way at a logout succeeds before the next
login: the refresh with new tokens, the call with a user. -/
def timely (t : Tab) : Callback → Bool
  | .answerRefresh k r =>
      match t.refreshes[k]? with
      | some refresh => !(t.stale refresh.since && (r.bind Response.tokens).isSome)
      | none => true
  | .proceed i =>
      match t.calls[i]? with
      | some ⟨_, .authMe, .returned _, since⟩ => !t.stale since
      | _ => true
  | _ => true

/-- The server lets nobody read `/auth/me` without a token. -/
def authenticated (t : Tab) : Callback → Bool
  | .answer i (some r) =>
      match t.calls[i]? with
      | some ⟨_, .authMe, .sent none, _⟩ => !r.ok
      | _ => true
  | _ => true

def CallStage.inSession : CallStage → Bool
  | .sent (some _) | .returned _ => true
  | _ => false

/-- Until the next login nothing is stored, and what may still write was sent before the logout. -/
structure Final (t : Tab) : Prop where
  refreshes : ∀ refresh ∈ t.refreshes, refresh.since ≤ t.logouts
  calls : ∀ c ∈ t.calls, c.since ≤ t.logouts
  empty : t.signedOut = true → t.storage = .empty
  noRefresh : t.signedOut = true → ∀ refresh ∈ t.refreshes, refresh.since < t.logouts
  noUser : t.signedOut = true → ∀ c ∈ t.calls, c.caller = .authMe → c.stage.inSession = true →
    c.since < t.logouts

section

variable {t t' : Tab}

theorem Final.logout (h : Final t) : Final t.logout := by
  have hrefreshes : ∀ refresh ∈ t.refreshes, refresh.since < t.logouts + 1 := by
    intro refresh hrefresh
    exact Nat.lt_succ_of_le (h.refreshes refresh hrefresh)
  have hcalls : ∀ c ∈ t.calls, c.since < t.logouts + 1 := by
    intro c hc
    exact Nat.lt_succ_of_le (h.calls c hc)
  constructor
  · exact fun refresh hrefresh => (hrefreshes refresh hrefresh).le
  · exact fun c hc => (hcalls c hc).le
  · exact fun _ => rfl
  · exact fun _ => hrefreshes
  · exact fun _ c hc _ _ => hcalls c hc

theorem Final.setCall (h : Final t) (i : Nat) {c : Call} (hsince : c.since ≤ t.logouts)
    (hnew : t.signedOut = true → c.caller = .authMe → c.stage.inSession = true →
      c.since < t.logouts) : Final (t.setCall i c) := by
  constructor
  · exact h.refreshes
  · intro c' hc'
    rcases List.mem_or_eq_of_mem_set hc' with hmem | rfl
    · exact h.calls c' hmem
    · exact hsince
  · exact h.empty
  · exact h.noRefresh
  · intro hout c' hc' hcaller hsession
    rcases List.mem_or_eq_of_mem_set hc' with hmem | rfl
    · exact h.noUser hout c' hmem hcaller hsession
    · exact hnew hout hcaller hsession

theorem Final.setStage (h : Final t) (i : Nat) {c : Call} (hsince : c.since ≤ t.logouts)
    {stage : CallStage} (hstage : stage.inSession = false) : Final (t.setStage i c stage) := by
  refine h.setCall i ?_ ?_
  · exact hsince
  intro _ _ hsession
  rw [hstage] at hsession
  simp at hsession

theorem Final.no_token (h : Final t) (hout : t.signedOut = true) :
    (CallStage.sent (truthy t.storage.accessToken)).inSession = false := by
  rw [h.empty hout]
  rfl

theorem Final.apiRequest (h : Final t) (path : String) (caller : Caller) :
    Final (t.apiRequest path caller) := by
  constructor
  · exact h.refreshes
  · intro c hc
    rcases List.mem_append.mp hc with hmem | hlast
    · exact h.calls c hmem
    · rw [List.mem_singleton.mp hlast]
      exact Nat.le_refl _
  · exact h.empty
  · exact h.noRefresh
  · intro hout c hc hcaller hsession
    rcases List.mem_append.mp hc with hmem | hlast
    · exact h.noUser hout c hmem hcaller hsession
    · rw [List.mem_singleton.mp hlast, h.no_token hout] at hsession
      simp at hsession

theorem Final.refreshAccessToken (h : Final t) : Final t.refreshAccessToken.2 := by
  unfold Tab.refreshAccessToken
  split
  · exact h
  · next refreshToken htoken =>
      have hin : t.signedOut ≠ true := by
        intro hout
        rw [h.empty hout] at htoken
        simp [Storage.empty, truthy] at htoken
      split
      · exact h
      · constructor
        · intro refresh hrefresh
          rcases List.mem_append.mp hrefresh with hmem | hlast
          · exact h.refreshes refresh hmem
          · rw [List.mem_singleton.mp hlast]
        · exact h.calls
        · exact h.empty
        · exact fun hout => absurd hout hin
        · exact h.noUser

theorem logouts_refreshAccessToken (t : Tab) : t.refreshAccessToken.2.logouts = t.logouts := by
  unfold Tab.refreshAccessToken
  split
  · rfl
  · split <;> rfl

theorem Final.answer (h : Final t) {i : Nat} {c : Call} {token : Option String}
    (hc : t.calls[i]? = some c) (hsent : c.stage = .sent token) (r : Option Response)
    (hserver : ∀ r', r = some r' → c.caller = .authMe → token = none → r'.ok = false) :
    Final (t.answer i c r) := by
  have hmem := List.mem_of_getElem? hc
  have hsince := h.calls c hmem
  unfold Tab.answer
  split
  · exact h.setStage i hsince rfl
  · next r' =>
      split
      · apply h.refreshAccessToken.setStage i _ rfl
        rw [logouts_refreshAccessToken]
        exact hsince
      · split
        · next hok =>
            -- what returns the user was sent with a token
            refine h.setCall i ?_ ?_
            · exact hsince
            intro hout hcaller _
            apply h.noUser hout c hmem hcaller
            rw [hsent]
            cases token with
            | none => simp [hserver r' rfl hcaller rfl] at hok
            | some token => rfl
        · exact h.setStage i hsince rfl

theorem Final.resume (h : Final t) {i : Nat} {c : Call} (hc : t.calls[i]? = some c)
    (refreshed : Bool) : Final (t.resume i c refreshed) := by
  unfold Tab.resume
  split
  · apply h.setCall i (Nat.le_refl _)
    intro hout _ hsession
    rw [h.no_token hout] at hsession
    simp at hsession
  · apply h.logout.setStage i _ rfl
    exact Nat.le_succ_of_le (h.calls c (List.mem_of_getElem? hc))

theorem Final.setRefresh (h : Final t) {k : Nat} {refresh : Refresh}
    (hrefresh : t.refreshes[k]? = some refresh) (stage : RefreshStage) :
    Final (t.setRefresh k refresh stage) := by
  have hmem := List.mem_of_getElem? hrefresh
  constructor
  · intro refresh' hrefresh'
    rcases List.mem_or_eq_of_mem_set hrefresh' with hother | rfl
    · exact h.refreshes refresh' hother
    · exact h.refreshes refresh hmem
  · exact h.calls
  · exact h.empty
  · intro hout refresh' hrefresh'
    rcases List.mem_or_eq_of_mem_set hrefresh' with hother | rfl
    · exact h.noRefresh hout refresh' hother
    · exact h.noRefresh hout refresh hmem
  · exact h.noUser

theorem Final.answerRefresh (h : Final t) {k : Nat} {refresh : Refresh}
    (hrefresh : t.refreshes[k]? = some refresh) (r : Option Response)
    (htimely : (r.bind Response.tokens).isSome = true → t.stale refresh.since = false) :
    Final (t.answerRefresh k refresh r) := by
  unfold Tab.answerRefresh
  split
  · exact h.setRefresh hrefresh _
  · next htokens =>
      have hset := h.setRefresh hrefresh (.answered true)
      have hin : t.signedOut ≠ true := by
        intro hout
        have hbefore := h.noRefresh hout refresh (List.mem_of_getElem? hrefresh)
        have hstale := htimely (by rw [htokens]; rfl)
        simp [Tab.stale, hout, hbefore] at hstale
      exact ⟨hset.refreshes, hset.calls, fun hout => absurd hout hin, hset.noRefresh, hset.noUser⟩

theorem Final.proceed (h : Final t) {i : Nat} {c : Call} (hc : t.calls[i]? = some c)
    (r : Option Response)
    (htimely : r.isSome = true → c.caller = .authMe →
      c.stage.inSession = true ∧ t.stale c.since = false) :
    Final (t.proceed i c r) := by
  have hmem := List.mem_of_getElem? hc
  have hsince := h.calls c hmem
  unfold Tab.proceed
  split
  · have hdone : Final (t.setStage i c .done) := h.setStage i hsince rfl
    dsimp only
    split
    · exact ⟨hdone.refreshes, hdone.calls, by simp, by simp, by simp⟩
    · next hcaller =>
        have hin : t.signedOut ≠ true := by
          intro hout
          obtain ⟨hsession, hstale⟩ := htimely rfl hcaller
          have hbefore := h.noUser hout c hmem hcaller hsession
          simp [Tab.stale, hout, hbefore] at hstale
        exact ⟨hdone.refreshes, hdone.calls, fun hout => absurd hout hin, hdone.noRefresh,
          hdone.noUser⟩
    · exact hdone
  · split
    · exact h.logout.setStage i (Nat.le_succ_of_le hsince) rfl
    · exact h.setStage i hsince rfl
    · exact h.setStage i hsince rfl

theorem final_load (storage : Storage) : Final (Tab.load storage) := by
  constructor <;> simp [Tab.load]

theorem Final.step {e : Callback} (h : Final t) (htimely : timely t e = true)
    (hserver : authenticated t e = true) (hstep : t.step e = some t') : Final t' := by
  cases e with
  | call path =>
      obtain rfl := Option.some.inj hstep
      exact h.apiRequest path .other
  | login =>
      obtain rfl := Option.some.inj hstep
      exact h.apiRequest loginPath .login
  | logout =>
      obtain rfl := Option.some.inj hstep
      exact h.logout
  | load =>
      obtain rfl := Option.some.inj hstep
      exact ⟨by simp [Tab.load], by simp [Tab.load], h.empty, by simp [Tab.load],
        by simp [Tab.load]⟩
  | render =>
      obtain rfl := Option.some.inj hstep
      exact ⟨h.refreshes, h.calls, h.empty, h.noRefresh, h.noUser⟩
  | effect =>
      rw [Tab.step] at hstep
      split at hstep
      · obtain rfl := Option.some.inj hstep
        have hrun : Final { t with effectDue := false } :=
          ⟨h.refreshes, h.calls, h.empty, h.noRefresh, h.noUser⟩
        dsimp only
        split
        · exact hrun.apiRequest mePath .authMe
        · exact hrun
      · simp at hstep
  | answer i r =>
      rw [Tab.step] at hstep
      split at hstep
      · next path caller token since hc =>
          obtain rfl := Option.some.inj hstep
          apply h.answer hc rfl r
          rintro r' rfl hcaller rfl
          obtain rfl : caller = .authMe := hcaller
          simpa [authenticated, hc] using hserver
      · simp at hstep
  | resume i =>
      rw [Tab.step] at hstep
      split at hstep
      · next hc =>
          obtain ⟨refreshed, -, rfl⟩ := Option.map_eq_some_iff.mp hstep
          exact h.resume hc refreshed
      · simp at hstep
  | proceed i =>
      rw [Tab.step] at hstep
      split at hstep
      · next path caller r since hc =>
          obtain rfl := Option.some.inj hstep
          apply h.proceed hc
          intro _ hcaller
          obtain rfl : caller = .authMe := hcaller
          exact ⟨rfl, by simpa [timely, hc] using htimely⟩
      · next hc =>
          obtain rfl := Option.some.inj hstep
          exact h.proceed hc none (by simp)
      · simp at hstep
  | answerRefresh k r =>
      rw [Tab.step] at hstep
      split at hstep
      · next refreshToken since hrefresh =>
          obtain rfl := Option.some.inj hstep
          apply h.answerRefresh hrefresh r
          intro htokens
          simpa [timely, hrefresh, htokens] using htimely
      · simp at hstep
  | settle k =>
      rw [Tab.step] at hstep
      split at hstep
      · next refreshToken result since hrefresh =>
          obtain rfl := Option.some.inj hstep
          have hset := h.setRefresh hrefresh (.settled result)
          exact ⟨hset.refreshes, hset.calls, hset.empty, hset.noRefresh, hset.noUser⟩
      · simp at hstep

/-- The condition is exact: a callback that does not keep to it stores an entry of the session that
has ended. -/
theorem untimely_stores {e : Callback} (htimely : timely t e = false)
    (hstep : t.step e = some t') : t'.signedOut = true ∧ t'.storage ≠ .empty := by
  cases e with
  | answerRefresh k r =>
      rw [Tab.step] at hstep
      split at hstep
      · next refreshToken since hrefresh =>
          obtain rfl := Option.some.inj hstep
          obtain ⟨hstale, htokens⟩ : t.stale since = true ∧
              (r.bind Response.tokens).isSome = true := by
            simpa [timely, hrefresh] using htimely
          have hout : t.signedOut = true := by
            simp only [Tab.stale, Bool.and_eq_true] at hstale
            exact hstale.1
          obtain ⟨tokens, heq⟩ := Option.isSome_iff_exists.mp htokens
          unfold Tab.answerRefresh
          rw [heq]
          exact ⟨hout, by simp [Storage.empty]⟩
      · simp at hstep
  | proceed i =>
      rw [Tab.step] at hstep
      split at hstep
      · next path caller r since hc =>
          obtain rfl := Option.some.inj hstep
          cases caller with
          | authMe =>
              have hstale : t.stale since = true := by simpa [timely, hc] using htimely
              have hout : t.signedOut = true := by
                simp only [Tab.stale, Bool.and_eq_true] at hstale
                exact hstale.1
              exact ⟨hout, by simp [Tab.proceed, Storage.empty, stored]⟩
          | login => simp [timely, hc] at htimely
          | other => simp [timely, hc] at htimely
      · next hc => simp [timely, hc] at htimely
      · simp at hstep
  | _ => simp [timely] at htimely

/-- In every run in which no refresh and no call of `/auth/me` from before a logout succeeds until
the next login, nothing is stored between the two. -/
theorem logout_final {storage : Storage} {es : List Callback}
    (h : Run Tab.step (fun t e => timely t e = true ∧ authenticated t e = true)
      (Tab.load storage) es t) (hout : t.signedOut = true) : t.storage = .empty := by
  have hfinal : Final t := by
    apply h.invariant _ (final_load storage)
    intro t e t' hfinal hok hstep
    exact hfinal.step hok.1 hok.2 hstep
  exact hfinal.empty hout

end

def logoutDuringRefresh (r : Option Response) : List Callback :=
  [.call "/a", .answer 0 (some ⟨401, none, none, none⟩), .logout, .answerRefresh 0 r, .settle 0,
    .resume 0]

theorem logout_final_refused : ∃ t : Tab, t.signedOut = true ∧ t.storage = .empty := by
  obtain ⟨t, hrun, hout⟩ : ∃ t, Run Tab.step
      (fun t e => timely t e = true ∧ authenticated t e = true)
      (Tab.load ⟨some "A1", some "R1", some "U"⟩)
      (logoutDuringRefresh (some ⟨401, none, none, none⟩)) t ∧ t.signedOut = true :=
    @Run.exists_of_execute _ _ _ _ (fun t e => timely t e && authenticated t e) _ _ Tab.signedOut
      (fun _ _ h => by simpa using h) (by decide +kernel)
  exact ⟨t, hout, logout_final hrun hout⟩

/-- A refresh that is answered after the logout brings the session back. -/
theorem refresh_after_logout : ∃ t : Tab,
    Run Tab.step (fun t e => authenticated t e = true) (Tab.load ⟨some "A1", some "R1", some "U"⟩)
      (logoutDuringRefresh (some ⟨200, some "A2", some "R2", some "U"⟩)) t ∧
      t.signedOut = true ∧ t.storage = ⟨some "A2", some "R2", some "U"⟩ := by
  obtain ⟨t, hrun, hend⟩ : ∃ t, Run Tab.step (fun t e => authenticated t e = true)
      (Tab.load ⟨some "A1", some "R1", some "U"⟩)
      (logoutDuringRefresh (some ⟨200, some "A2", some "R2", some "U"⟩)) t ∧
        (t.signedOut && t.storage == ⟨some "A2", some "R2", some "U"⟩) = true :=
    Run.exists_of_execute (fun _ _ h => h) (by decide +kernel)
  rw [Bool.and_eq_true, beq_iff_eq] at hend
  exact ⟨t, hrun, hend⟩

end ClientTab

end NotificationPlatform
