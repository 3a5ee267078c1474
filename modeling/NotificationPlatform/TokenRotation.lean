import NotificationPlatform.ClientTab

/-!
# One refresh at a time

Every refresh request carries the token that is stored when it is sent. The shared promise is there
from that moment until the callback after the one that stores the new tokens, so that no second
request is sent with a token that the first one has had replaced.
-/

namespace NotificationPlatform

open Lib

namespace ClientTab

/-- The request is sent and its response not processed. -/
def Refresh.inFlight (refresh : Refresh) : Bool := refresh.stage == .sent

def NoReplay (log : List TokenUse) : Prop :=
  log.Pairwise fun before after =>
    ∀ refreshToken, before = .rotated refreshToken → after ≠ .carried refreshToken

/-- A response or a login brings a refresh token that no request of the tab has carried. -/
def freshTokens (t : Tab) : Callback → Bool
  | .answerRefresh _ r =>
      (r.bind Response.tokens).all fun tokens => !t.log.contains (.carried tokens.2)
  | .proceed i =>
      match t.calls[i]? with
      | some ⟨_, .login, .returned r, _⟩ =>
          !t.log.contains (.carried (r.refreshToken.getD "undefined"))
      | _ => true
  | _ => true

/-- A refresh that is not settled is the shared one, what is logged as replaced was carried, and the
stored token was not replaced. -/
structure SingleFlight (t : Tab) : Prop where
  shared : ∀ k refresh, t.refreshes[k]? = some refresh →
    (∀ result, refresh.stage ≠ .settled result) → t.refreshRequest = some k
  sent : ∀ refresh ∈ t.refreshes, .carried refresh.refreshToken ∈ t.log
  rotated : ∀ refreshToken, .rotated refreshToken ∈ t.log → .carried refreshToken ∈ t.log
  stored : ∀ refreshToken, t.storage.refreshToken = some refreshToken →
    .rotated refreshToken ∉ t.log
  noReplay : NoReplay t.log

section

variable {t t' : Tab}

theorem SingleFlight.of_eq (h : SingleFlight t) (hrequest : t'.refreshRequest = t.refreshRequest)
    (hrefreshes : t'.refreshes = t.refreshes) (hlog : t'.log = t.log)
    (hstored : ∀ refreshToken, t'.storage.refreshToken = some refreshToken →
      .rotated refreshToken ∉ t.log) : SingleFlight t' := by
  constructor
  · rw [hrequest, hrefreshes]
    exact h.shared
  · rw [hrefreshes, hlog]
    exact h.sent
  · rw [hlog]
    exact h.rotated
  · rw [hlog]
    exact hstored
  · rw [hlog]
    exact h.noReplay

theorem SingleFlight.logout (h : SingleFlight t) : SingleFlight t.logout :=
  h.of_eq rfl rfl rfl (by simp [Tab.logout, Storage.empty])

theorem SingleFlight.setCall (h : SingleFlight t) (i : Nat) (c : Call) :
    SingleFlight (t.setCall i c) :=
  h.of_eq rfl rfl rfl h.stored

theorem SingleFlight.apiRequest (h : SingleFlight t) (path : String) (caller : Caller) :
    SingleFlight (t.apiRequest path caller) :=
  h.of_eq rfl rfl rfl h.stored

theorem SingleFlight.refreshAccessToken (h : SingleFlight t) :
    SingleFlight t.refreshAccessToken.2 := by
  unfold Tab.refreshAccessToken
  split
  · exact h
  · next refreshToken htoken =>
      have hstored : t.storage.refreshToken = some refreshToken :=
        (Option.filter_eq_some_iff.mp htoken).1
      split
      · exact h
      · next hnone =>
          constructor
          · intro k refresh hrefresh hunsettled
            by_cases hk : k = t.refreshes.length
            · rw [hk]
            · -- an earlier one that is not settled would be shared
              have hlt : k < t.refreshes.length := by
                have hlength := (List.getElem?_eq_some_iff.mp hrefresh).1
                simp only [List.length_append, List.length_singleton] at hlength
                omega
              rw [List.getElem?_append_left hlt] at hrefresh
              rw [h.shared k refresh hrefresh hunsettled] at hnone
              simp at hnone
          · intro refresh hrefresh
            rcases List.mem_append.mp hrefresh with hrefresh | hrefresh
            · exact List.mem_append_left _ (h.sent refresh hrefresh)
            · rw [List.mem_singleton.mp hrefresh]
              exact List.mem_append_right _ (List.mem_singleton.mpr rfl)
          · intro token htoken
            have hold : TokenUse.rotated token ∈ t.log := by simpa using htoken
            exact List.mem_append_left _ (h.rotated token hold)
          · intro token htoken
            have hold := h.stored token htoken
            simpa using hold
          · apply List.pairwise_append.mpr
            refine ⟨h.noReplay, List.pairwise_singleton _ _, ?_⟩
            intro before hbefore after hafter token htoken hcarried
            rw [List.mem_singleton.mp hafter] at hcarried
            obtain rfl := TokenUse.carried.inj hcarried
            rw [htoken] at hbefore
            exact h.stored _ hstored hbefore

theorem SingleFlight.answer (h : SingleFlight t) (i : Nat) (c : Call) (r : Option Response) :
    SingleFlight (t.answer i c r) := by
  unfold Tab.answer
  split
  · exact h.setCall i _
  · split
    · exact h.refreshAccessToken.setCall i _
    · split
      · exact h.setCall i _
      · exact h.setCall i _

theorem SingleFlight.resume (h : SingleFlight t) (i : Nat) (c : Call) (refreshed : Bool) :
    SingleFlight (t.resume i c refreshed) := by
  unfold Tab.resume
  split
  · exact h.setCall i _
  · exact h.logout.setCall i _

theorem SingleFlight.setRefresh (h : SingleFlight t) {k : Nat} {refresh : Refresh}
    (hrefresh : t.refreshes[k]? = some refresh) (hsent : refresh.stage = .sent)
    (stage : RefreshStage) : SingleFlight (t.setRefresh k refresh stage) := by
  constructor
  · intro l refresh' hrefresh' hunsettled
    by_cases hl : k = l
    · subst hl
      apply h.shared k refresh hrefresh
      rw [hsent]
      simp
    · have hold : t.refreshes[l]? = some refresh' := by
        simpa [Tab.setRefresh, List.getElem?_set_ne hl] using hrefresh'
      exact h.shared l refresh' hold hunsettled
  · intro refresh' hrefresh'
    rcases List.mem_or_eq_of_mem_set hrefresh' with hmem | rfl
    · exact h.sent refresh' hmem
    · exact h.sent refresh (List.mem_of_getElem? hrefresh)
  · exact h.rotated
  · exact h.stored
  · exact h.noReplay

theorem SingleFlight.answerRefresh (h : SingleFlight t) {k : Nat} {refresh : Refresh}
    (hrefresh : t.refreshes[k]? = some refresh) (hsent : refresh.stage = .sent)
    (r : Option Response)
    (hfresh : ∀ tokens, r.bind Response.tokens = some tokens → .carried tokens.2 ∉ t.log) :
    SingleFlight (t.answerRefresh k refresh r) := by
  unfold Tab.answerRefresh
  split
  · exact h.setRefresh hrefresh hsent _
  · next accessToken refreshToken htokens =>
      have hnew : .carried refreshToken ∉ t.log := hfresh _ htokens
      have hset := h.setRefresh hrefresh hsent (.answered true)
      have hcarried := h.sent refresh (List.mem_of_getElem? hrefresh)
      constructor
      · exact hset.shared
      · intro refresh' hrefresh'
        exact List.mem_append_left _ (hset.sent refresh' hrefresh')
      · intro token htoken
        apply List.mem_append_left
        rcases List.mem_append.mp htoken with hold | hlast
        · exact h.rotated token hold
        · rw [TokenUse.rotated.inj (List.mem_singleton.mp hlast)]
          exact hcarried
      · intro token htoken hrotated
        obtain rfl : refreshToken = token := by simpa using htoken
        rcases List.mem_append.mp hrotated with hold | hlast
        · exact hnew (h.rotated _ hold)
        · rw [TokenUse.rotated.inj (List.mem_singleton.mp hlast)] at hnew
          exact hnew hcarried
      · apply List.pairwise_append.mpr
        refine ⟨h.noReplay, List.pairwise_singleton _ _, ?_⟩
        intro before _ after hafter token _ heq
        rw [List.mem_singleton.mp hafter] at heq
        simp at heq

theorem SingleFlight.settle (h : SingleFlight t) {k : Nat} {refresh : Refresh}
    (hrefresh : t.refreshes[k]? = some refresh)
    (hunsettled : ∀ result, refresh.stage ≠ .settled result) (result : Bool) :
    SingleFlight { t.setRefresh k refresh (.settled result) with refreshRequest := none } := by
  constructor
  · intro l refresh' hrefresh' hunsettled'
    have hk := h.shared k refresh hrefresh hunsettled
    by_cases hl : k = l
    · subst hl
      have hlt : k < t.refreshes.length := (List.getElem?_eq_some_iff.mp hrefresh).1
      obtain rfl : { refresh with stage := .settled result } = refresh' := by
        simpa [Tab.setRefresh, hlt] using hrefresh'
      exact absurd rfl (hunsettled' result)
    · have hold : t.refreshes[l]? = some refresh' := by
        simpa [Tab.setRefresh, List.getElem?_set_ne hl] using hrefresh'
      have hother := h.shared l refresh' hold hunsettled'
      rw [hk] at hother
      exact absurd (Option.some.inj hother) hl
  · intro refresh' hrefresh'
    rcases List.mem_or_eq_of_mem_set hrefresh' with hmem | rfl
    · exact h.sent refresh' hmem
    · exact h.sent refresh (List.mem_of_getElem? hrefresh)
  · exact h.rotated
  · exact h.stored
  · exact h.noReplay

theorem SingleFlight.proceed (h : SingleFlight t) (i : Nat) (c : Call) (r : Option Response)
    (hfresh : ∀ r', r = some r' → c.caller = .login →
      .carried (r'.refreshToken.getD "undefined") ∉ t.log) : SingleFlight (t.proceed i c r) := by
  unfold Tab.proceed
  split
  · next r' =>
      have hdone := h.setCall i { c with stage := .done }
      dsimp only
      split
      · next hcaller =>
          refine SingleFlight.of_eq hdone ?_ ?_ ?_ ?_
          · rfl
          · rfl
          · rfl
          intro token htoken hrotated
          obtain rfl : r'.refreshToken.getD "undefined" = token := by
            simpa [ClientTab.stored] using htoken
          exact hfresh r' rfl hcaller (h.rotated _ hrotated)
      · exact hdone.of_eq rfl rfl rfl hdone.stored
      · exact hdone
  · split
    · exact h.logout.setCall i _
    · exact h.setCall i _
    · exact h.setCall i _

theorem singleFlight_load (storage : Storage) : SingleFlight (Tab.load storage) := by
  constructor <;> simp [Tab.load, NoReplay]

theorem SingleFlight.step {e : Callback} (h : SingleFlight t) (hfresh : freshTokens t e = true)
    (hstep : t.step e = some t') : SingleFlight t' := by
  cases e with
  | call path =>
      obtain rfl := Option.some.inj hstep
      exact h.apiRequest path .other
  | login =>
      obtain rfl := Option.some.inj hstep
      exact h.apiRequest loginPath .login
  | logout =>
      obtain rfl := Option.some.inj hstep
      exact h.logout
  | load =>
      obtain rfl := Option.some.inj hstep
      exact ⟨by simp [Tab.load], by simp [Tab.load], h.rotated, h.stored, h.noReplay⟩
  | render =>
      obtain rfl := Option.some.inj hstep
      exact h.of_eq rfl rfl rfl h.stored
  | effect =>
      rw [Tab.step] at hstep
      split at hstep
      · obtain rfl := Option.some.inj hstep
        have hrun : SingleFlight { t with effectDue := false } := h.of_eq rfl rfl rfl h.stored
        dsimp only
        split
        · exact hrun.apiRequest mePath .authMe
        · exact hrun
      · simp at hstep
  | answer i r =>
      rw [Tab.step] at hstep
      split at hstep
      · obtain rfl := Option.some.inj hstep
        exact h.answer i _ r
      · simp at hstep
  | resume i =>
      rw [Tab.step] at hstep
      split at hstep
      · obtain ⟨refreshed, -, rfl⟩ := Option.map_eq_some_iff.mp hstep
        exact h.resume i _ refreshed
      · simp at hstep
  | proceed i =>
      rw [Tab.step] at hstep
      split at hstep
      · next path caller r since hcall =>
          obtain rfl := Option.some.inj hstep
          apply h.proceed i
          rintro r' hr hcaller
          obtain rfl := Option.some.inj hr
          obtain rfl : caller = .login := hcaller
          simpa [freshTokens, hcall] using hfresh
      · obtain rfl := Option.some.inj hstep
        exact h.proceed i _ none (by simp)
      · simp at hstep
  | answerRefresh k r =>
      rw [Tab.step] at hstep
      split at hstep
      · next refreshToken since hrefresh =>
          obtain rfl := Option.some.inj hstep
          apply h.answerRefresh hrefresh rfl r
          intro tokens htokens
          simpa [freshTokens, htokens] using hfresh
      · simp at hstep
  | settle k =>
      rw [Tab.step] at hstep
      split at hstep
      · next refreshToken result since hrefresh =>
          obtain rfl := Option.some.inj hstep
          exact h.settle hrefresh (by simp) result
      · simp at hstep

theorem SingleFlight.inFlight_le (h : SingleFlight t) :
    t.refreshes.countP Refresh.inFlight ≤ 1 := by
  have hshared : ∀ k refresh, t.refreshes[k]? = some refresh → refresh.inFlight = true →
      t.refreshRequest = some k := by
    intro k refresh hrefresh hflight
    apply h.shared k refresh hrefresh
    intro result hsettled
    rw [Refresh.inFlight, hsettled] at hflight
    simp at hflight
  apply countP_le_one
  intro k l refresh refresh' hrefresh hrefresh' hflight hflight'
  have hk := hshared k refresh hrefresh hflight
  rw [hshared l refresh' hrefresh' hflight'] at hk
  exact (Option.some.inj hk).symm

/-- In every run of a tab, a refresh token that was replaced is not carried again, and at most one
refresh request is in flight. -/
theorem rotated_token_not_replayed {storage : Storage} {es : List Callback}
    (h : Run Tab.step (fun t e => freshTokens t e = true) (Tab.load storage) es t) :
    NoReplay t.log ∧ t.refreshes.countP Refresh.inFlight ≤ 1 := by
  have hsafe : SingleFlight t := by
    apply h.invariant _ (singleFlight_load storage)
    intro t e t' hsafe hfresh hstep
    exact hsafe.step hfresh hstep
  exact ⟨hsafe.noReplay, hsafe.inFlight_le⟩

end

/-- Two calls fail with one token; the second failure arrives between the two callbacks of the
refresh, so that its call awaits the same promise. -/
def twoFailures : List Callback :=
  [.call "/a", .call "/b", .answer 0 (some ⟨401, none, none, none⟩),
    .answerRefresh 0 (some ⟨200, some "A2", some "R2", none⟩),
    .answer 1 (some ⟨401, none, none, none⟩), .settle 0, .resume 0, .resume 1,
    .answer 0 (some ⟨401, none, none, none⟩)]

theorem two_failures_one_refresh : ∃ t : Tab,
    (NoReplay t.log ∧ t.refreshes.countP Refresh.inFlight ≤ 1) ∧
      t.log = [.carried "R1", .rotated "R1", .carried "R2"] := by
  obtain ⟨t, hrun, hlog⟩ : ∃ t, Run Tab.step (fun t e => freshTokens t e = true)
      (Tab.load ⟨some "A1", some "R1", none⟩) twoFailures t ∧
        (t.log == [.carried "R1", .rotated "R1", .carried "R2"]) = true :=
    Run.exists_of_execute (fun _ _ h => h) (by decide +kernel)
  exact ⟨t, rotated_token_not_replayed hrun, beq_iff_eq.mp hlog⟩

end ClientTab

end NotificationPlatform
