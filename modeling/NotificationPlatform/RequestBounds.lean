import Mathlib.Computability.StateTransition
import NotificationPlatform.ClientTab

/-!
# The requests of one call

A call of `apiRequest` alone in a tab, with the responses to what the tab fetches in their order.
A request that is refused and followed by a refresh that succeeds is sent once more by a call of
the same function, which treats the second refusal as it treats the first.
-/

namespace NotificationPlatform

namespace ClientTab

open StateTransition

/-- A tab with one call: `answered` counts the responses that have arrived, `sent` how often the
request of the call has been sent. The refreshes it has triggered are those of the tab. -/
structure LoneCall where
  tab : Tab
  answered : Nat
  sent : Nat

def Tab.inFlight (t : Tab) : Bool :=
  match (t.calls[0]?).map Call.stage with
  | some (.sent _) => true
  | _ => false

/-- The callback that is due in a tab with one call; `r` is the response to what was fetched
last. There is none once the call has returned or thrown. -/
def Tab.due (t : Tab) (r : Option Response) : Option Callback :=
  match (t.calls[0]?).map Call.stage with
  | some (.sent _) => some (.answer 0 r)
  | some (.refreshing none) => some (.resume 0)
  | some (.refreshing (some k)) =>
      match (t.refreshes[k]?).map Refresh.stage with
      | some .sent => some (.answerRefresh k r)
      | some (.answered _) => some (.settle k)
      | some (.settled _) => some (.resume 0)
      | none => none
  | _ => none

def Callback.isAnswer : Callback → Bool
  | .answer _ _ => true
  | .answerRefresh _ _ => true
  | _ => false

namespace LoneCall

def start (path : String) (caller : Caller) (storage : Storage) : LoneCall :=
  ⟨(Tab.load storage).apiRequest path caller, 0, 1⟩

/-- Run the callback that is due; the fetches are answered from `answers` in their order. -/
def next (answers : Nat → Option Response) (s : LoneCall) : Option LoneCall := do
  let e ← s.tab.due (answers s.answered)
  let tab ← s.tab.step e
  some
    { tab
      answered := if e.isAnswer then s.answered + 1 else s.answered
      sent := if tab.inFlight && !s.tab.inFlight then s.sent + 1 else s.sent }

end LoneCall

/-- A response on which `apiRequest` asks for new tokens. -/
def unauthorized (path : String) (r : Option Response) : Bool :=
  shouldRefresh path && r.any fun r => r.status == 401

/-- The call ends, and until then it sends its request at most twice and triggers at most one
refresh. -/
def BoundedRequests (path : String) (caller : Caller) (storage : Storage)
    (answers : Nat → Option Response) : Prop :=
  (∀ s, Reaches (LoneCall.next answers) (.start path caller storage) s →
    s.sent ≤ 2 ∧ s.tab.refreshes.length ≤ 1) ∧
  (eval (LoneCall.next answers) (.start path caller storage)).Dom

namespace Tab

theorem length_refreshAccessToken (t : Tab) :
    t.refreshes.length ≤ t.refreshAccessToken.2.refreshes.length := by
  unfold refreshAccessToken
  split
  · exact Nat.le_refl _
  · split
    · exact Nat.le_refl _
    · simp

theorem length_answer (t : Tab) (i : Nat) (c : Call) (r : Option Response) :
    t.refreshes.length ≤ (t.answer i c r).refreshes.length := by
  unfold answer
  split
  · exact Nat.le_refl _
  · split
    · exact t.length_refreshAccessToken
    · split <;> exact Nat.le_refl _

theorem refreshes_answerRefresh (t : Tab) (k : Nat) (refresh : Refresh) (r : Option Response) :
    (t.answerRefresh k refresh r).refreshes = t.refreshes.set k
      { refresh with stage := .answered (r.bind Response.tokens).isSome } := by
  unfold answerRefresh
  split
  · next h => rw [h, setRefresh, Option.isSome_none]
  · next h => rw [h, setRefresh, Option.isSome_some]

theorem calls_answerRefresh (t : Tab) (k : Nat) (refresh : Refresh) (r : Option Response) :
    (t.answerRefresh k refresh r).calls = t.calls := by
  unfold answerRefresh
  split <;> rfl

theorem length_answerRefresh (t : Tab) (k : Nat) (refresh : Refresh) (r : Option Response) :
    (t.answerRefresh k refresh r).refreshes.length = t.refreshes.length := by
  rw [refreshes_answerRefresh, List.length_set]

theorem refreshToken_answerRefresh (t : Tab) (k : Nat) (refresh : Refresh) {r : Option Response}
    (h : (r.bind Response.tokens).isSome = true) :
    (truthy (t.answerRefresh k refresh r).storage.refreshToken).isSome = true := by
  obtain ⟨⟨accessToken, refreshToken⟩, htokens⟩ := Option.isSome_iff_exists.mp h
  obtain ⟨r, rfl, hr⟩ := Option.bind_eq_some_iff.mp htokens
  have hstored : (t.answerRefresh k refresh (some r)).storage.refreshToken = some refreshToken := by
    simp [answerRefresh, hr]
  rw [hstored]
  unfold Response.tokens at hr
  split at hr
  · split at hr
    · next hrefresh =>
        obtain ⟨rfl, rfl⟩ := Prod.mk.inj (Option.some.inj hr)
        obtain ⟨-, hne⟩ := Option.filter_eq_some_iff.mp hrefresh
        simpa [truthy] using hne
    · simp at hr
  · simp at hr

theorem length_resume (t : Tab) (i : Nat) (c : Call) (refreshed : Bool) :
    (t.resume i c refreshed).refreshes.length = t.refreshes.length := by
  unfold resume
  split <;> rfl

theorem length_of_due {t t' : Tab} {r : Option Response} {e : Callback} (hdue : t.due r = some e)
    (hstep : t.step e = some t') : t.refreshes.length ≤ t'.refreshes.length := by
  unfold due at hdue
  cases e with
  | answer i r' =>
      rw [step] at hstep
      split at hstep
      · obtain rfl := Option.some.inj hstep
        exact length_answer _ _ _ _
      · simp at hstep
  | resume i =>
      rw [step] at hstep
      split at hstep
      · obtain ⟨refreshed, -, rfl⟩ := Option.map_eq_some_iff.mp hstep
        rw [length_resume]
      · simp at hstep
  | answerRefresh k r' =>
      rw [step] at hstep
      split at hstep
      · obtain rfl := Option.some.inj hstep
        rw [length_answerRefresh]
      · simp at hstep
  | settle k =>
      rw [step] at hstep
      split at hstep
      · obtain rfl := Option.some.inj hstep
        simp [setRefresh]
      · simp at hstep
  | _ =>
      -- the user acts and React renders elsewhere
      split at hdue
      all_goals first | (split at hdue <;> simp at hdue) | simp at hdue

end Tab

namespace LoneCall

variable {path : String} {caller : Caller} {answers : Nat → Option Response} {s s' : LoneCall}

structure Waiting (path : String) (caller : Caller) (s : LoneCall) : Prop where
  call : ∃ token since, s.tab.calls = [⟨path, caller, .sent token, since⟩]
  free : s.tab.refreshRequest = none

def Refreshing (path : String) (caller : Caller) (stage : RefreshStage) (s : LoneCall) : Prop :=
  ∃ k since refresh, s.tab.calls = [⟨path, caller, .refreshing (some k), since⟩] ∧
    s.tab.refreshes[k]? = some refresh ∧ refresh.stage = stage

def Ended (s : LoneCall) : Prop := ∀ r, s.tab.due r = none

structure Costs (s s' : LoneCall) (requests refreshes : Nat) : Prop where
  sent : s'.sent = s.sent + requests
  refreshes : s'.tab.refreshes.length = s.tab.refreshes.length + refreshes

theorem Costs.trans {u : LoneCall} {m n k l : Nat} (h : Costs s s' m n) (h' : Costs s' u k l) :
    Costs s u (m + k) (n + l) :=
  ⟨by rw [h'.sent, h.sent, Nat.add_assoc], by rw [h'.refreshes, h.refreshes, Nat.add_assoc]⟩

theorem next_of_due {e : Callback} {tab : Tab} (hdue : s.tab.due (answers s.answered) = some e)
    (hstep : s.tab.step e = some tab) :
    next answers s = some
      { tab
        answered := if e.isAnswer then s.answered + 1 else s.answered
        sent := if tab.inFlight && !s.tab.inFlight then s.sent + 1 else s.sent } := by
  simp [next, hdue, hstep]

theorem Ended.next_eq (h : Ended s) : next answers s = none := by
  simp [next, h (answers s.answered)]

theorem next_mono (h : next answers s = some s') :
    s.sent ≤ s'.sent ∧ s.tab.refreshes.length ≤ s'.tab.refreshes.length := by
  obtain ⟨e, hdue, hstep⟩ := Option.bind_eq_some_iff.mp h
  obtain ⟨tab, htab, hs'⟩ := Option.bind_eq_some_iff.mp hstep
  obtain rfl := Option.some.inj hs'
  refine ⟨?_, Tab.length_of_due hdue htab⟩
  dsimp only
  split <;> omega

theorem reaches_mono (h : Reaches (next answers) s s') :
    s.sent ≤ s'.sent ∧ s.tab.refreshes.length ≤ s'.tab.refreshes.length := by
  induction h with
  | refl => exact ⟨Nat.le_refl _, Nat.le_refl _⟩
  | tail _ hnext ih =>
      have hstep := next_mono hnext
      exact ⟨ih.1.trans hstep.1, ih.2.trans hstep.2⟩

theorem Waiting.next_eq (h : Waiting path caller s) (answers : Nat → Option Response) :
    ∃ token since, s.tab.calls = [⟨path, caller, .sent token, since⟩] ∧
      next answers s = some
        { tab := s.tab.answer 0 ⟨path, caller, .sent token, since⟩ (answers s.answered)
          answered := s.answered + 1
          sent := s.sent } := by
  obtain ⟨token, since, hcalls⟩ := h.call
  have hdue : s.tab.due (answers s.answered) = some (.answer 0 (answers s.answered)) := by
    simp [Tab.due, hcalls]
  have hstep : s.tab.step (.answer 0 (answers s.answered)) = some
      (s.tab.answer 0 ⟨path, caller, .sent token, since⟩ (answers s.answered)) := by
    simp [Tab.step, hcalls]
  have hflight : s.tab.inFlight = true := by simp [Tab.inFlight, hcalls]
  refine ⟨token, since, hcalls, ?_⟩
  rw [next_of_due hdue hstep, hflight, Bool.not_true, Bool.and_false]
  rfl

theorem Waiting.served (h : Waiting path caller s)
    (hserved : unauthorized path (answers s.answered) = false) :
    ∃ s', Reaches (next answers) s s' ∧ Ended s' ∧ Costs s s' 0 0 := by
  obtain ⟨token, since, hcalls, hnext⟩ := h.next_eq answers
  refine ⟨_, .single hnext, ?_, ⟨rfl, ?_⟩⟩
  all_goals
    cases hr : answers s.answered with
    | none => simp [Ended, Tab.answer, Tab.setStage, Tab.setCall, Tab.due, hcalls]
    | some r =>
        have hother : ¬(r.status = 401 ∧ shouldRefresh path) := by
          rintro ⟨hstatus, hpath⟩
          simp [unauthorized, hr, hstatus, hpath] at hserved
        by_cases hok : r.ok <;>
          simp [Ended, Tab.answer, Tab.setStage, Tab.setCall, Tab.due, hcalls, hother, hok]

theorem Waiting.refused (h : Waiting path caller s)
    (hrefused : unauthorized path (answers s.answered) = true) :
    ∃ s' since, next answers s = some s' ∧
      s'.tab.calls = [⟨path, caller, .refreshing s.tab.refreshAccessToken.1, since⟩] ∧
      s'.tab.refreshes = s.tab.refreshAccessToken.2.refreshes ∧
      s'.answered = s.answered + 1 ∧ s'.sent = s.sent := by
  obtain ⟨token, since, hcalls, hnext⟩ := h.next_eq answers
  refine ⟨_, since, hnext, ?_, ?_, rfl, rfl⟩
  all_goals
    cases hr : answers s.answered with
    | none => simp [unauthorized, hr] at hrefused
    | some r =>
        have hboth : r.status = 401 ∧ shouldRefresh path := by
          simpa [unauthorized, hr, and_comm] using hrefused
        have hkept : s.tab.refreshAccessToken.2.calls = s.tab.calls := by
          unfold Tab.refreshAccessToken
          split
          · rfl
          · split <;> rfl
        simp [Tab.answer, hboth, Tab.setStage, Tab.setCall, hkept, hcalls]

theorem due_resume {since : Nat} {refresh : Option Nat} {result : Bool} {r : Option Response}
    (hcalls : s.tab.calls = [⟨path, caller, .refreshing refresh, since⟩])
    (hsettled : s.tab.refreshed? refresh = some result) : s.tab.due r = some (.resume 0) := by
  cases refresh with
  | none => simp [Tab.due, hcalls]
  | some k =>
      rw [Tab.refreshed?] at hsettled
      split at hsettled
      · next stage hstage => simp [Tab.due, hcalls, hstage]
      · simp at hsettled

theorem signs_out (answers : Nat → Option Response) {since : Nat} {refresh : Option Nat}
    (hcalls : s.tab.calls = [⟨path, caller, .refreshing refresh, since⟩])
    (hrefused : s.tab.refreshed? refresh = some false) :
    ∃ s', next answers s = some s' ∧ Ended s' ∧ Costs s s' 0 0 := by
  have hstep : s.tab.step (.resume 0) =
      some (s.tab.resume 0 ⟨path, caller, .refreshing refresh, since⟩ false) := by
    simp [Tab.step, hcalls, hrefused]
  have hthrown : (s.tab.resume 0 ⟨path, caller, .refreshing refresh, since⟩ false).calls =
      [⟨path, caller, .thrown, since⟩] := by
    simp [Tab.resume, Tab.setStage, Tab.setCall, Tab.logout, hcalls]
  refine ⟨_, next_of_due (due_resume hcalls hrefused) hstep, ?_, ?_, ?_⟩
  · simp [Ended, Tab.due, hthrown]
  · simp [Tab.inFlight, hthrown]
  · exact Tab.length_resume _ _ _ _

theorem Waiting.signed_out (h : Waiting path caller s)
    (hrefused : unauthorized path (answers s.answered) = true)
    (hnone : truthy s.tab.storage.refreshToken = none) :
    ∃ s', Reaches (next answers) s s' ∧ Ended s' ∧ Costs s s' 0 0 := by
  have hrefresh : s.tab.refreshAccessToken = (none, s.tab) := by
    simp [Tab.refreshAccessToken, hnone]
  obtain ⟨middle, since, hnext, hcalls, hrefreshes, -, hsent⟩ := h.refused hrefused
  rw [hrefresh] at hcalls hrefreshes
  obtain ⟨s', hlater, hended, hcosts⟩ := signs_out answers hcalls rfl
  have hmiddle : Costs s middle 0 0 := ⟨hsent, by rw [hrefreshes, Nat.add_zero]⟩
  exact ⟨s', .head hnext (.single hlater), hended, hmiddle.trans hcosts⟩

theorem Waiting.sends_refresh (h : Waiting path caller s)
    (hrefused : unauthorized path (answers s.answered) = true)
    (htoken : (truthy s.tab.storage.refreshToken).isSome = true) :
    ∃ s', next answers s = some s' ∧ Refreshing path caller .sent s' ∧
      s'.answered = s.answered + 1 ∧ Costs s s' 0 1 := by
  obtain ⟨refreshToken, htoken⟩ := Option.isSome_iff_exists.mp htoken
  obtain ⟨s', since, hnext, hcalls, hrefreshes, hanswered, hsent⟩ := h.refused hrefused
  simp only [Tab.refreshAccessToken, htoken, h.free] at hcalls hrefreshes
  have hlast : s'.tab.refreshes[s.tab.refreshes.length]? =
      some ⟨refreshToken, .sent, s.tab.logouts⟩ := by
    rw [hrefreshes]
    simp
  exact ⟨s', hnext, ⟨_, since, _, hcalls, hlast, rfl⟩, hanswered, hsent, by simp [hrefreshes]⟩

theorem Refreshing.answered (h : Refreshing path caller .sent s)
    (answers : Nat → Option Response) :
    ∃ s', next answers s = some s' ∧
      Refreshing path caller (.answered ((answers s.answered).bind Response.tokens).isSome) s' ∧
      (((answers s.answered).bind Response.tokens).isSome →
        (truthy s'.tab.storage.refreshToken).isSome) ∧
      s'.answered = s.answered + 1 ∧ Costs s s' 0 0 := by
  obtain ⟨k, since, ⟨refreshToken, stage, sinceRefresh⟩, hcalls, hrefresh, rfl⟩ := h
  have hlt : k < s.tab.refreshes.length := (List.getElem?_eq_some_iff.mp hrefresh).1
  have hdue : s.tab.due (answers s.answered) = some (.answerRefresh k (answers s.answered)) := by
    simp [Tab.due, hcalls, hrefresh]
  have hstep : s.tab.step (.answerRefresh k (answers s.answered)) = some
      (s.tab.answerRefresh k ⟨refreshToken, .sent, sinceRefresh⟩ (answers s.answered)) := by
    simp [Tab.step, hrefresh]
  have hkept := (s.tab.calls_answerRefresh k ⟨refreshToken, .sent, sinceRefresh⟩
    (answers s.answered)).trans hcalls
  refine ⟨_, next_of_due hdue hstep, ⟨k, since, ⟨refreshToken, _, sinceRefresh⟩, hkept, ?_, rfl⟩,
    s.tab.refreshToken_answerRefresh k _, rfl, ?_, ?_⟩
  · rw [Tab.refreshes_answerRefresh, List.getElem?_set_self hlt]
  · simp [Tab.inFlight, hkept]
  · exact Tab.length_answerRefresh _ _ _ _

theorem Refreshing.settles {result : Bool} (h : Refreshing path caller (.answered result) s)
    (answers : Nat → Option Response) :
    ∃ s', next answers s = some s' ∧ Refreshing path caller (.settled result) s' ∧
      s'.tab.refreshRequest = none ∧ s'.tab.storage = s.tab.storage ∧
      s'.answered = s.answered ∧ Costs s s' 0 0 := by
  obtain ⟨k, since, ⟨refreshToken, stage, sinceRefresh⟩, hcalls, hrefresh, rfl⟩ := h
  have hlt : k < s.tab.refreshes.length := (List.getElem?_eq_some_iff.mp hrefresh).1
  have hdue : s.tab.due (answers s.answered) = some (.settle k) := by
    simp [Tab.due, hcalls, hrefresh]
  have hstep : s.tab.step (.settle k) = some
      { s.tab.setRefresh k ⟨refreshToken, .answered result, sinceRefresh⟩ (.settled result) with
        refreshRequest := none } := by
    simp [Tab.step, hrefresh]
  refine ⟨_, next_of_due hdue hstep, ⟨k, since, ⟨refreshToken, .settled result, sinceRefresh⟩,
    hcalls, ?_, rfl⟩, rfl, rfl, rfl, ?_, ?_⟩
  · simp [Tab.setRefresh, hlt]
  · simp [Tab.inFlight, Tab.setRefresh, hcalls]
  · simp [Tab.setRefresh]

theorem Refreshing.resent (h : Refreshing path caller (.settled true) s)
    (hfree : s.tab.refreshRequest = none) (answers : Nat → Option Response) :
    ∃ s', next answers s = some s' ∧ Waiting path caller s' ∧
      s'.tab.storage = s.tab.storage ∧ s'.answered = s.answered ∧ Costs s s' 1 0 := by
  obtain ⟨k, since, refresh, hcalls, hrefresh, hstage⟩ := h
  have hsettled : s.tab.refreshed? (some k) = some true := by
    simp [Tab.refreshed?, hrefresh, hstage]
  have hstep : s.tab.step (.resume 0) =
      some (s.tab.resume 0 ⟨path, caller, .refreshing (some k), since⟩ true) := by
    simp [Tab.step, hcalls, hsettled]
  have hsent : (s.tab.resume 0 ⟨path, caller, .refreshing (some k), since⟩ true).calls =
      [⟨path, caller, .sent (truthy s.tab.storage.accessToken), s.tab.logouts⟩] := by
    simp [Tab.resume, Tab.setCall, hcalls]
  refine ⟨_, next_of_due (due_resume hcalls hsettled) hstep, ⟨⟨_, _, hsent⟩, hfree⟩, rfl, rfl,
    ?_, ?_⟩
  · simp [Tab.inFlight, hsent, hcalls]
  · exact Tab.length_resume _ _ _ _

theorem Waiting.round (h : Waiting path caller s)
    (hrefused : unauthorized path (answers s.answered) = true)
    (htoken : (truthy s.tab.storage.refreshToken).isSome = true)
    (htokens : ((answers (s.answered + 1)).bind Response.tokens).isSome = true) :
    ∃ s', Reaches (next answers) s s' ∧ Waiting path caller s' ∧
      (truthy s'.tab.storage.refreshToken).isSome = true ∧
      s'.answered = s.answered + 2 ∧ Costs s s' 1 1 := by
  obtain ⟨s₁, hnext₁, hs₁, hanswered₁, hcosts₁⟩ := h.sends_refresh hrefused htoken
  obtain ⟨s₂, hnext₂, hs₂, htoken₂, hanswered₂, hcosts₂⟩ := hs₁.answered answers
  rw [hanswered₁] at hs₂ htoken₂ hanswered₂
  rw [htokens] at hs₂
  obtain ⟨s₃, hnext₃, hs₃, hfree, hstorage₃, hanswered₃, hcosts₃⟩ := hs₂.settles answers
  obtain ⟨s₄, hnext₄, hs₄, hstorage₄, hanswered₄, hcosts₄⟩ := hs₃.resent hfree answers
  have hreach : Reaches (next answers) s s₄ :=
    .head hnext₁ (.head hnext₂ (.head hnext₃ (.single hnext₄)))
  have hcosts := ((hcosts₁.trans hcosts₂).trans hcosts₃).trans hcosts₄
  refine ⟨s₄, hreach, hs₄, ?_, ?_, hcosts⟩
  · rw [hstorage₄, hstorage₃]
    exact htoken₂ htokens
  · rw [hanswered₄, hanswered₃, hanswered₂]

theorem Waiting.refresh_refused (h : Waiting path caller s)
    (hrefused : unauthorized path (answers s.answered) = true)
    (htoken : (truthy s.tab.storage.refreshToken).isSome = true)
    (htokens : ((answers (s.answered + 1)).bind Response.tokens).isSome = false) :
    ∃ s', Reaches (next answers) s s' ∧ Ended s' ∧ Costs s s' 0 1 := by
  obtain ⟨s₁, hnext₁, hs₁, hanswered₁, hcosts₁⟩ := h.sends_refresh hrefused htoken
  obtain ⟨s₂, hnext₂, hs₂, -, -, hcosts₂⟩ := hs₁.answered answers
  rw [hanswered₁, htokens] at hs₂
  obtain ⟨s₃, hnext₃, hs₃, -, -, -, hcosts₃⟩ := hs₂.settles answers
  obtain ⟨k, since, refresh, hcalls, hrefresh, hstage⟩ := hs₃
  have hsettled : s₃.tab.refreshed? (some k) = some false := by
    simp [Tab.refreshed?, hrefresh, hstage]
  obtain ⟨s₄, hnext₄, hended, hcosts₄⟩ := signs_out answers hcalls hsettled
  have hreach : Reaches (next answers) s s₄ :=
    .head hnext₁ (.head hnext₂ (.head hnext₃ (.single hnext₄)))
  exact ⟨s₄, hreach, hended, ((hcosts₁.trans hcosts₂).trans hcosts₃).trans hcosts₄⟩

theorem Waiting.last (h : Waiting path caller s)
    (hlast : ¬(unauthorized path (answers s.answered) = true ∧
      (truthy s.tab.storage.refreshToken).isSome = true ∧
      ((answers (s.answered + 1)).bind Response.tokens).isSome = true)) :
    ∃ s' refreshes, Reaches (next answers) s s' ∧ Ended s' ∧ Costs s s' 0 refreshes ∧
      refreshes ≤ 1 := by
  cases hrefused : unauthorized path (answers s.answered) with
  | false =>
      obtain ⟨s', hreach, hended, hcosts⟩ := h.served hrefused
      exact ⟨s', 0, hreach, hended, hcosts, Nat.zero_le 1⟩
  | true =>
      cases htoken : truthy s.tab.storage.refreshToken with
      | none =>
          obtain ⟨s', hreach, hended, hcosts⟩ := h.signed_out hrefused htoken
          exact ⟨s', 0, hreach, hended, hcosts, Nat.zero_le 1⟩
      | some refreshToken =>
          have hsome : (truthy s.tab.storage.refreshToken).isSome = true := by rw [htoken]; rfl
          have htokens : ((answers (s.answered + 1)).bind Response.tokens).isSome = false := by
            simpa [hrefused, htoken] using hlast
          obtain ⟨s', hreach, hended, hcosts⟩ := h.refresh_refused hrefused hsome htokens
          exact ⟨s', 1, hreach, hended, hcosts, Nat.le_refl 1⟩

theorem waiting_start (path : String) (caller : Caller) (storage : Storage) :
    Waiting path caller (start path caller storage) :=
  ⟨⟨_, _, rfl⟩, rfl⟩

theorem rounds (path : String) (caller : Caller) (answers : Nat → Option Response)
    {storage : Storage} (htoken : (truthy storage.refreshToken).isSome = true) (n : Nat)
    (hrounds : ∀ i < n, unauthorized path (answers (2 * i)) = true ∧
      ((answers (2 * i + 1)).bind Response.tokens).isSome = true) :
    ∃ s, Reaches (next answers) (start path caller storage) s ∧ Waiting path caller s ∧
      (truthy s.tab.storage.refreshToken).isSome = true ∧ s.answered = 2 * n ∧
      s.sent = n + 1 ∧ s.tab.refreshes.length = n := by
  induction n with
  | zero => exact ⟨_, .refl, waiting_start path caller storage, htoken, rfl, rfl, rfl⟩
  | succ n ih =>
      obtain ⟨s, hreach, hs, hstored, hanswered, hsent, hrefreshes⟩ :=
        ih fun i hi => hrounds i (by omega)
      obtain ⟨hrefused, htokens⟩ := hrounds n (Nat.lt_succ_self n)
      rw [← hanswered] at hrefused htokens
      obtain ⟨s', hround, hs', hstored', hanswered', hcosts⟩ := hs.round hrefused hstored htokens
      refine ⟨s', hreach.trans hround, hs', hstored', ?_, ?_, ?_⟩
      · rw [hanswered', hanswered]
        omega
      · rw [hcosts.sent, hsent]
      · rw [hcosts.refreshes, hrefreshes]

theorem bounded_of_ended {storage : Storage} {m n : Nat}
    (hreach : Reaches (next answers) (start path caller storage) s) (hended : Ended s)
    (hsent : s.sent ≤ m) (hrefreshes : s.tab.refreshes.length ≤ n) :
    (∀ s, Reaches (next answers) (start path caller storage) s →
      s.sent ≤ m ∧ s.tab.refreshes.length ≤ n) ∧
    (eval (next answers) (start path caller storage)).Dom := by
  have hfinal : s ∈ eval (next answers) (start path caller storage) :=
    mem_eval.mpr ⟨hreach, hended.next_eq⟩
  refine ⟨fun other hother => ?_, Part.dom_iff_mem.mpr ⟨s, hfinal⟩⟩
  have hbefore : Reaches (next answers) other s := by
    rcases reaches_total hother hreach with hbefore | hafter
    · exact hbefore
    · rw [(eval_maximal hfinal).mp hafter]
      exact .refl
  have hcounts := reaches_mono hbefore
  exact ⟨hcounts.1.trans hsent, hcounts.2.trans hrefreshes⟩

end LoneCall

section

open LoneCall

variable {path : String} {caller : Caller} {storage : Storage} {answers : Nat → Option Response}

/-- Two requests and one refresh are the bound unless the request is refused, the refresh
succeeds, and the second request is refused again. -/
theorem bounded_requests_iff (path : String) (caller : Caller) (storage : Storage)
    (answers : Nat → Option Response) :
    BoundedRequests path caller storage answers ↔
      ¬(unauthorized path (answers 0) = true ∧ (truthy storage.refreshToken).isSome = true ∧
        ((answers 1).bind Response.tokens).isSome = true ∧
        unauthorized path (answers 2) = true) := by
  constructor
  · rintro ⟨hbound, -⟩ ⟨hfirst, htoken, htokens, hsecond⟩
    obtain ⟨s, hreach, hs, hstored, hanswered, hround⟩ :=
      (waiting_start path caller storage).round hfirst htoken htokens
    rw [← show s.answered = 2 from hanswered] at hsecond
    obtain ⟨s', hnext, -, -, hcosts⟩ := hs.sends_refresh hsecond hstored
    have hle := (hbound s' (hreach.tail hnext)).2
    rw [(hround.trans hcosts).refreshes] at hle
    exact Nat.not_succ_le_self 1 hle
  · intro hgood
    by_cases hround : unauthorized path (answers 0) = true ∧
        (truthy storage.refreshToken).isSome = true ∧
        ((answers 1).bind Response.tokens).isSome = true
    · obtain ⟨hfirst, htoken, htokens⟩ := hround
      have hsecond : unauthorized path (answers 2) = false := by
        simpa [hfirst, htoken, htokens] using hgood
      obtain ⟨s, hreach, hs, -, hanswered, hround⟩ :=
        (waiting_start path caller storage).round hfirst htoken htokens
      rw [← show s.answered = 2 from hanswered] at hsecond
      obtain ⟨s', hserved, hended, hcosts⟩ := hs.served hsecond
      exact bounded_of_ended (hreach.trans hserved) hended (hround.trans hcosts).sent.le
        (hround.trans hcosts).refreshes.le
    · obtain ⟨s', refreshes, hreach, hended, hcosts, hle⟩ :=
        (waiting_start path caller storage).last hround
      refine bounded_of_ended hreach hended ?_ ?_
      · rw [hcosts.sent]
        exact Nat.le_succ 1
      · rw [hcosts.refreshes]
        exact (Nat.zero_add refreshes).trans_le hle

/-- A server that refuses every request and grants every refresh keeps the call going: it neither
returns nor throws, and passes every number of requests and refreshes. -/
theorem requests_unbounded (caller : Caller) (storage : Storage)
    (htoken : (truthy storage.refreshToken).isSome = true)
    (hrounds : ∀ i, unauthorized path (answers (2 * i)) = true ∧
      ((answers (2 * i + 1)).bind Response.tokens).isSome = true) :
    (∀ n, ∃ s, Reaches (next answers) (start path caller storage) s ∧ s.sent = n + 1 ∧
      s.tab.refreshes.length = n) ∧
    ¬(eval (next answers) (start path caller storage)).Dom := by
  have hmany : ∀ n, ∃ s, Reaches (next answers) (start path caller storage) s ∧ s.sent = n + 1 ∧
      s.tab.refreshes.length = n := by
    intro n
    obtain ⟨s, hreach, -, -, -, hsent, hrefreshes⟩ :=
      rounds path caller answers htoken n fun i _ => hrounds i
    exact ⟨s, hreach, hsent, hrefreshes⟩
  refine ⟨hmany, fun hdom => ?_⟩
  obtain ⟨final, hfinal⟩ := Part.dom_iff_mem.mp hdom
  obtain ⟨s, hreach, hsent, -⟩ := hmany final.sent
  have hle : s.sent ≤ final.sent := by
    rcases reaches_total hreach (mem_eval.mp hfinal).1 with hbefore | hafter
    · exact (reaches_mono hbefore).1
    · rw [(eval_maximal hfinal).mp hafter]
  omega

def refusedThrough (n : Nat) : Option Response :=
  if n % 2 = 0 then some ⟨401, none, none, none⟩
  else some ⟨200, some "access", some "refresh", none⟩

theorem requests_not_bounded :
    ¬BoundedRequests "/admin/api/v1/notifications" .other ⟨some "access", some "refresh", none⟩
      refusedThrough := by
  intro hbound
  have hpath : shouldRefresh "/admin/api/v1/notifications" = true := by decide
  have hrounds : ∀ i, unauthorized "/admin/api/v1/notifications" (refusedThrough (2 * i)) = true ∧
      ((refusedThrough (2 * i + 1)).bind Response.tokens).isSome = true := by
    intro i
    have heven : refusedThrough (2 * i) = some ⟨401, none, none, none⟩ := by
      simp [refusedThrough]
    have hodd : refusedThrough (2 * i + 1) =
        some ⟨200, some "access", some "refresh", none⟩ := by
      simp [refusedThrough, Nat.add_mod]
    rw [heven, hodd, unauthorized, hpath]
    decide
  have htoken : (truthy (some "refresh")).isSome = true := by decide
  obtain ⟨s, hreach, hsent, -⟩ :=
    (requests_unbounded .other ⟨some "access", some "refresh", none⟩ htoken hrounds).1 2
  have hle := (hbound.1 s hreach).1
  omega

end

end ClientTab

end NotificationPlatform
