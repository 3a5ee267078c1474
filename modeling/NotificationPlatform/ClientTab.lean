import Mathlib.Data.List.Infix
import NotificationPlatform.Lib.Run

/-!
# A tab of the admin UI

What one browser tab does with its tokens. The code runs in callbacks, one at a time and each to its
end: `apiRequest` goes on when its response arrives, when the refresh it awaits is settled, and when
its caller takes the result; the refresh that all requests share goes on when its response arrives
and once more to clear the shared promise. Any other callback may come between two of these.
-/

namespace NotificationPlatform

open Lib

namespace ClientTab

structure Storage where
  accessToken : Option String
  refreshToken : Option String
  user : Option String
  deriving DecidableEq, Repr

def Storage.empty : Storage := ⟨none, none, none⟩

/-- A response: its status, and the fields of its JSON that the code reads. -/
structure Response where
  status : Nat
  accessToken : Option String
  refreshToken : Option String
  user : Option String
  deriving DecidableEq, Repr

def Response.ok (r : Response) : Bool := 200 ≤ r.status && r.status ≤ 299

def truthy (text : Option String) : Option String := text.filter (· ≠ "")

def Response.tokens (r : Response) : Option (String × String) :=
  if r.ok then
    match truthy r.accessToken, truthy r.refreshToken with
    | some accessToken, some refreshToken => some (accessToken, refreshToken)
    | _, _ => none
  else none

inductive Caller where
  | login
  | authMe
  | other
  deriving DecidableEq, Repr

/-- Where a call of `apiRequest` stands: its request is sent with a token or without, it awaits a
refresh, or it has returned or thrown and its caller has to go on. A refresh is known by its number;
`none` is `refreshAccessToken` that has returned `false` at once. -/
inductive CallStage where
  | sent (token : Option String)
  | refreshing (refresh : Option Nat)
  | returned (r : Response)
  | thrown
  | done
  deriving DecidableEq, Repr

/-- A call of `apiRequest`. `since` is the number of logouts at the time of its last request. -/
structure Call where
  path : String
  caller : Caller
  stage : CallStage
  since : Nat
  deriving DecidableEq, Repr

/-- Where a refresh stands: its request is in flight, its response has been processed, or the
promise is settled. -/
inductive RefreshStage where
  | sent
  | answered (result : Bool)
  | settled (result : Bool)
  deriving DecidableEq, Repr

structure Refresh where
  refreshToken : String
  stage : RefreshStage
  since : Nat
  deriving DecidableEq, Repr

/-- A refresh request with a token, or a response with new tokens for the one it carried. -/
inductive TokenUse where
  | carried (refreshToken : String)
  | rotated (refreshToken : String)
  deriving DecidableEq, Repr

/-- `token` is the state of `AuthProvider`, `rendered` its value at the last render, and `effectDue`
says that the effect of that render has not run. The last three fields record the exchanges with the
refresh endpoint, the logouts, and whether no login has followed the last of them. -/
structure Tab where
  storage : Storage
  token : Option String
  rendered : Option String
  effectDue : Bool
  refreshRequest : Option Nat
  refreshes : List Refresh
  calls : List Call
  log : List TokenUse
  logouts : Nat
  signedOut : Bool
  deriving DecidableEq, Repr

def Tab.load (storage : Storage) : Tab :=
  ⟨storage, storage.accessToken, storage.accessToken, true, none, [], [], [], 0, false⟩

def loginPath : String := "/admin/api/v1/auth/login"

def refreshPath : String := "/admin/api/v1/auth/refresh"

def mePath : String := "/admin/api/v1/auth/me"

def includes (path part : String) : Bool := decide (part.toList <:+: path.toList)

def shouldRefresh (path : String) : Bool := !includes path loginPath && !includes path refreshPath

def stored (value : Option String) : Option String := some (value.getD "undefined")

namespace Tab

def apiRequest (path : String) (caller : Caller) (t : Tab) : Tab :=
  { t with calls := t.calls ++ [⟨path, caller, .sent (truthy t.storage.accessToken), t.logouts⟩] }

def setCall (t : Tab) (i : Nat) (c : Call) : Tab := { t with calls := t.calls.set i c }

def setStage (t : Tab) (i : Nat) (c : Call) (stage : CallStage) : Tab :=
  t.setCall i { c with stage }

def setRefresh (t : Tab) (k : Nat) (refresh : Refresh) (stage : RefreshStage) : Tab :=
  { t with refreshes := t.refreshes.set k { refresh with stage } }

/-- `refreshAccessToken` up to the promise it returns; a request is sent unless one is shared. -/
def refreshAccessToken (t : Tab) : Option Nat × Tab :=
  match truthy t.storage.refreshToken with
  | none => (none, t)
  | some refreshToken =>
      match t.refreshRequest with
      | some k => (some k, t)
      | none =>
          (some t.refreshes.length,
            { t with
              refreshRequest := some t.refreshes.length
              refreshes := t.refreshes ++ [⟨refreshToken, .sent, t.logouts⟩]
              log := t.log ++ [.carried refreshToken] })

/-- `logout` of the context, and `clearAuthAndRedirect`, whose event sets the same state. -/
def logout (t : Tab) : Tab :=
  { t with
    storage := .empty
    token := none
    logouts := t.logouts + 1
    signedOut := true }

def answer (t : Tab) (i : Nat) (c : Call) : Option Response → Tab
  | none => t.setStage i c .thrown
  | some r =>
      if r.status = 401 ∧ shouldRefresh c.path then
        let refreshed := t.refreshAccessToken
        refreshed.2.setStage i c (.refreshing refreshed.1)
      else if r.ok then t.setStage i c (.returned r)
      else t.setStage i c .thrown

/-- `apiRequest` from the settled refresh on: it starts again, or clears the session and throws. -/
def resume (t : Tab) (i : Nat) (c : Call) (refreshed : Bool) : Tab :=
  if refreshed then
    t.setCall i { c with stage := .sent (truthy t.storage.accessToken), since := t.logouts }
  else t.logout.setStage i c .thrown

def answerRefresh (t : Tab) (k : Nat) (refresh : Refresh) (r : Option Response) : Tab :=
  match r.bind Response.tokens with
  | none => t.setRefresh k refresh (.answered false)
  | some (accessToken, refreshToken) =>
      { t.setRefresh k refresh (.answered true) with
        storage := ⟨some accessToken, some refreshToken, (r.bind Response.user).or t.storage.user⟩
        log := t.log ++ [.rotated refresh.refreshToken] }

/-- What the caller of `apiRequest` does with the result. -/
def proceed (t : Tab) (i : Nat) (c : Call) : Option Response → Tab
  | some r =>
      let t := t.setStage i c .done
      match c.caller with
      | .login =>
          { t with
            storage := ⟨stored r.accessToken, stored r.refreshToken, stored r.user⟩
            token := r.accessToken
            signedOut := false }
      | .authMe => { t with storage := { t.storage with user := stored r.user } }
      | .other => t
  | none =>
      match c.caller with
      | .authMe => t.logout.setStage i c .done
      | .login | .other => t.setStage i c .done

end Tab

inductive Callback where
  | call (path : String)
  | login
  | logout
  | load
  | render
  | effect
  | answer (i : Nat) (r : Option Response)
  | resume (i : Nat)
  | proceed (i : Nat)
  | answerRefresh (k : Nat) (r : Option Response)
  | settle (k : Nat)
  deriving DecidableEq, Repr

namespace Tab

def refreshed? (t : Tab) : Option Nat → Option Bool
  | none => some false
  | some k =>
      match (t.refreshes[k]?).map Refresh.stage with
      | some (.settled result) => some result
      | _ => none

def step (t : Tab) : Callback → Option Tab
  | .call path => some (t.apiRequest path .other)
  | .login => some (t.apiRequest loginPath .login)
  | .logout => some t.logout
  | .load =>
      some { Tab.load t.storage with log := t.log, logouts := t.logouts, signedOut := t.signedOut }
  | .render => some { t with rendered := t.token, effectDue := t.effectDue || t.token != t.rendered }
  | .effect =>
      if t.effectDue then
        let t := { t with effectDue := false }
        some (if (truthy t.rendered).isSome then t.apiRequest mePath .authMe else t)
      else none
  | .answer i r =>
      match t.calls[i]? with
      | some ⟨path, caller, .sent token, since⟩ =>
          some (t.answer i ⟨path, caller, .sent token, since⟩ r)
      | _ => none
  | .resume i =>
      match t.calls[i]? with
      | some ⟨path, caller, .refreshing refresh, since⟩ =>
          (t.refreshed? refresh).map (t.resume i ⟨path, caller, .refreshing refresh, since⟩)
      | _ => none
  | .proceed i =>
      match t.calls[i]? with
      | some ⟨path, caller, .returned r, since⟩ =>
          some (t.proceed i ⟨path, caller, .returned r, since⟩ (some r))
      | some ⟨path, caller, .thrown, since⟩ =>
          some (t.proceed i ⟨path, caller, .thrown, since⟩ none)
      | _ => none
  | .answerRefresh k r =>
      match t.refreshes[k]? with
      | some ⟨refreshToken, .sent, since⟩ =>
          some (t.answerRefresh k ⟨refreshToken, .sent, since⟩ r)
      | _ => none
  | .settle k =>
      match t.refreshes[k]? with
      | some ⟨refreshToken, .answered result, since⟩ =>
          some { t.setRefresh k ⟨refreshToken, .answered result, since⟩ (.settled result) with
            refreshRequest := none }
      | _ => none

end Tab

end ClientTab

end NotificationPlatform
