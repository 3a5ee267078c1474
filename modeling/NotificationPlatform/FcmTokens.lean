import NotificationPlatform.AdminLists
import NotificationPlatform.Lib.Mutex
import NotificationPlatform.System

/-!
# Access tokens for FCM

`fcm.FCMV1Provider` exchanges an assertion for an access token and keeps the token, behind a mutex,
until a minute before it expires. Any number of messages are sent at once. The clock is in
nanoseconds and does not go back.
-/

namespace NotificationPlatform

open Lib Lib.Guarded

/-- `providers.Message`, as far as `Send` reads it. -/
structure PushMessage where
  recipient : String
  subject : String
  body : String
  data : JsonMap

structure TokenResponse where
  accessToken : String
  expiresIn : Int

structure FcmRequest where
  url : String
  authorization : String
  body : Json

/-- The steps of `Send` that others can come between. -/
inductive FcmCall where
  | lock
  | unlock
  | token
  | tokenExpires
  | now
  | createAssertion
  /-- the exchange is asked for -/
  | request (jwt : String)
  /-- and answered -/
  | response
  | setToken (token : String)
  | setTokenExpires (time : Int)
  | post (request : FcmRequest)
  /-- the time in the id of a message that was sent -/
  | stamp

@[reducible] def FcmCall.Reply : FcmCall → Type
  | .lock | .unlock | .setToken _ | .setTokenExpires _ => Unit
  | .token => String
  | .tokenExpires => Int
  | .now | .stamp => Nat
  | .createAssertion => Except String String
  | .request _ => Except String Unit
  | .response => Except String TokenResponse
  | .post _ => Except String (Nat × String)

abbrev FcmProg : Type → Type := Prog FcmCall FcmCall.Reply

def FcmCall.perform (c : FcmCall) : FcmProg c.Reply := Prog.perform c

namespace FCMV1Provider

/-- `time.Duration(tr.ExpiresIn-60) * time.Second` -/
def lifetime (expiresIn : Int) : Int := wrapInt ((expiresIn - 60) * 10 ^ 9)

/-- `getToken`, where no token is kept that is still good. -/
def exchangeToken : FcmProg (Except String String) := do
  match ← FcmCall.createAssertion.perform with
  | .error error => return .error error
  | .ok jwt =>
    match ← FcmCall.perform (.request jwt) with
    | .error error => return .error error
    | .ok () =>
      match ← FcmCall.response.perform with
      | .error error => return .error error
      | .ok answer =>
        FcmCall.perform (.setToken answer.accessToken)
        let now ← FcmCall.now.perform
        FcmCall.perform (.setTokenExpires (now + lifetime answer.expiresIn))
        let token ← FcmCall.token.perform
        return .ok token

def currentToken : FcmProg (Except String String) := do
  let token ← FcmCall.token.perform
  let valid ← if token = "" then pure false else do
    let now ← FcmCall.now.perform
    let expires ← FcmCall.tokenExpires.perform
    pure (decide ((now : Int) < expires))
  if valid then
    let token ← FcmCall.token.perform
    return .ok token
  else exchangeToken

def getToken : FcmProg (Except String String) := do
  FcmCall.lock.perform
  let token ← currentToken
  FcmCall.unlock.perform
  return token

def orData (m : PushMessage) (field key : String) : String :=
  if field ≠ "" then field
  else
    match m.data.get? key with
    | some (.str value) => value
    | _ => ""

def payload (m : PushMessage) : Json :=
  let title := orData m m.subject "title"
  let body := orData m m.body "body"
  let data := m.data.fields.filter fun field => field.2 matches .str _
  .obj [("message", .obj
    ([("token", .str (orData m m.recipient "fcm_token"))] ++
      (if title ≠ "" ∨ body ≠ "" then
        [("notification", .obj
          ((if title ≠ "" then [("title", .str title)] else []) ++
            (if body ≠ "" then [("body", .str body)] else [])))]
      else []) ++
      (if data ≠ [] then [("data", .obj data)] else [])))]

def send (projectID : String) (m : PushMessage) : FcmProg (Except String ProviderResult) := do
  match ← getToken with
  | .error error => return .error ("fcm auth: " ++ error)
  | .ok token =>
    if orData m m.recipient "fcm_token" = "" then return .error "fcm token required"
    else
      let url := "https://fcm.googleapis.com/v1/projects/" ++ projectID ++ "/messages:send"
      match ← FcmCall.perform (.post ⟨url, "Bearer " ++ token, payload m⟩) with
      | .error error => return .error error
      | .ok (status, body) =>
        if status ≠ 200 then
          return .error ("fcm API error " ++ toString status ++ ": " ++ body)
        else
          let now ← FcmCall.stamp.perform
          return .ok ⟨"fcm_" ++ toString now,
            .obj [("project_id", .str projectID), ("provider", .str "fcm_v1")]⟩

/-- An answer to an exchange that has been stored: when it was asked for and given, when the clock
was read after it, and until when its token is kept. -/
structure Issue where
  answer : TokenResponse
  asked : Nat
  answered : Nat
  readAt : Nat
  expires : Int

/-- What the mutex guards, and its history: the exchange that was begun or answered last, when the
clock was last read, and the answers that have been stored, the last one first. -/
structure Cache where
  token : String
  tokenExpires : Int
  asked : Nat
  answered : Nat
  answer : TokenResponse
  seen : Nat
  issued : List Issue

structure State where
  cache : Cache
  held : Bool
  clock : Nat

structure Answers where
  elapsed : Nat
  assertion : Except String String
  asked : Except String Unit
  answer : Except String TokenResponse
  posted : Except String (Nat × String)

def exec (o : Answers) (c : FcmCall) (w : State) : c.Reply × State :=
  let clock := w.clock + o.elapsed
  match c with
  | .lock => ((), { w with clock, held := true })
  | .unlock => ((), { w with clock, held := false })
  | .token => (w.cache.token, { w with clock })
  | .tokenExpires => (w.cache.tokenExpires, { w with clock })
  | .now => (clock, { w with clock, cache := { w.cache with seen := clock } })
  | .createAssertion => (o.assertion, { w with clock })
  | .request _ => (o.asked, { w with clock, cache := { w.cache with asked := clock } })
  | .response =>
      match o.answer with
      | .error error => (.error error, { w with clock })
      | .ok answer => (.ok answer,
          { w with clock, cache := { w.cache with answer, answered := clock } })
  | .setToken token => ((), { w with clock, cache := { w.cache with token } })
  | .setTokenExpires time => ((), { w with
      clock
      cache := { w.cache with
        tokenExpires := time
        issued := ⟨w.cache.answer, w.cache.asked, w.cache.answered, w.cache.seen, time⟩ ::
          w.cache.issued } })
  | .post _ => (o.posted, { w with clock })
  | .stamp => (clock, { w with clock })

/-- The exchange was answered after it was asked for, and the token is kept for its lifetime from
when the clock was read. -/
structure Issue.Regular (i : Issue) : Prop where
  answered : i.asked ≤ i.answered
  readAt : i.answered ≤ i.readAt
  expires : i.expires = i.readAt + lifetime i.answer.expiresIn

/-- A token that is kept has not expired, by the time when it was asked for, if the exchange took
less than a minute. -/
theorem Issue.Regular.alive {i : Issue} (h : i.Regular) (hmin : 0 ≤ i.answer.expiresIn)
    (hmax : i.answer.expiresIn ≤ 9 * 10 ^ 9) (hquick : i.readAt < i.asked + 60 * 10 ^ 9) {t : Nat}
    (ht : (t : Int) < i.expires) : (t : Int) < i.asked + i.answer.expiresIn * 10 ^ 9 := by
  have hfits : wrapInt ((i.answer.expiresIn - 60) * 10 ^ 9) =
      (i.answer.expiresIn - 60) * 10 ^ 9 := by
    unfold wrapInt
    omega
  rw [h.expires, lifetime, hfits] at ht
  omega

/-- No exchange was asked for as long as the token of the one before was kept. -/
def Spaced (issued : List Issue) : Prop :=
  issued.IsChain fun i before => before.answer.accessToken ≠ "" → before.expires ≤ i.asked

structure Cache.InOrder (x : Cache) : Prop where
  empty : x.issued = [] → x.token = ""
  last : ∀ i rest, x.issued = i :: rest →
    x.token = i.answer.accessToken ∧ x.tokenExpires = i.expires
  regular : ∀ i ∈ x.issued, i.Regular

structure Cache.Later (x y : Cache) : Prop where
  issued : x.issued <:+ y.issued
  spaced : Spaced x.issued → Spaced y.issued

def role : FcmCall → LockRole
  | .lock => .lock
  | .unlock => .unlock
  | _ => .plain

def guarded : Guarded FcmCall FcmCall.Reply State Answers Cache where
  exec := exec
  role := role
  held := State.held
  value := State.cache
  valid w := w.cache.seen ≤ w.clock ∧ w.cache.asked ≤ w.clock ∧ w.cache.answered ≤ w.clock
  inOrder := Cache.InOrder
  later := Cache.Later
  later_refl x := ⟨List.suffix_rfl, id⟩
  later_trans h h' := ⟨h.issued.trans h'.issued, h'.spaced ∘ h.spaced⟩
  exec_valid := by
    rintro o c w ⟨hseen, hasked, hanswered⟩
    cases c
    case response =>
      cases h : o.answer <;> simp only [exec, h] <;> omega
    all_goals
      simp only [exec]
      omega
  exec_lock := by
    rintro o c w hrole
    cases c <;> simp [role] at hrole
    exact ⟨rfl, rfl⟩
  exec_unlock := by
    rintro o c w hrole
    cases c <;> simp [role] at hrole
    exact ⟨rfl, rfl⟩
  exec_plain := by
    rintro o c w hrole
    cases c <;> simp [role] at hrole
    case response => cases h : o.answer <;> simp [exec, h]
    all_goals rfl

/-- A program has the token of a stored answer: its own, or one that was to be kept for longer when
it read the clock. -/
def Has (made : List (Made FcmCall FcmCall.Reply)) (x : Cache) (token : String) : Prop :=
  ∃ i ∈ x.issued, i.Regular ∧ i.answer.accessToken = token ∧
    (⟨.response, .ok i.answer⟩ ∈ made ∨ ∃ t : Nat, ⟨.now, t⟩ ∈ made ∧ (t : Int) < i.expires)

/-- A program that had the token has released the mutex since, and not taken it again. -/
def Obtained (made : List (Made FcmCall FcmCall.Reply)) (x : Cache) (token : String) : Prop :=
  ∃ before after, made = before ++ ⟨.unlock, ()⟩ :: after ∧ ⟨.lock, ()⟩ ∉ after ∧
    Has before x token

def Stale (issued : List Issue) (seen : Nat) : Prop :=
  ∀ i rest, issued = i :: rest → i.answer.accessToken ≠ "" → i.expires ≤ seen

/-- Tokens are exchanged under the lock when the last one is not kept any more, and messages posted
without it, with a token that was obtained. -/
def Allowed (made : List (Made FcmCall FcmCall.Reply)) (place : Place Cache) : FcmCall → Prop
  | .request _ => ∃ x, place = .inside x ∧ Stale x.issued x.seen
  | .response => place.isInside = true
  | .post r => ∃ x token, place = .outside x ∧ r.authorization = "Bearer " ++ token ∧
      Obtained made x token
  | _ => True

section

variable {x y : Cache} {made : List (Made FcmCall FcmCall.Reply)} {α : Type}

theorem effect_token {r : String} (h : guarded.Effect .token x r y) : r = x.token ∧ y = x := by
  obtain ⟨o, w, -, rfl, rfl, rfl⟩ := h
  exact ⟨rfl, rfl⟩

theorem effect_tokenExpires {r : Int} (h : guarded.Effect .tokenExpires x r y) :
    r = x.tokenExpires ∧ y = x := by
  obtain ⟨o, w, -, rfl, rfl, rfl⟩ := h
  exact ⟨rfl, rfl⟩

theorem effect_now {r : Nat} (h : guarded.Effect .now x r y) :
    x.answered ≤ r ∧ y = { x with seen := r } := by
  obtain ⟨o, w, hvalid, rfl, rfl, rfl⟩ := h
  exact ⟨Nat.le_add_right_of_le hvalid.2.2, rfl⟩

theorem effect_createAssertion {r : Except String String}
    (h : guarded.Effect .createAssertion x r y) : y = x := by
  obtain ⟨o, w, -, rfl, rfl, rfl⟩ := h
  rfl

theorem effect_request {jwt : String} {r : Except String Unit}
    (h : guarded.Effect (.request jwt) x r y) :
    ∃ t, x.seen ≤ t ∧ y = { x with asked := t } := by
  obtain ⟨o, w, hvalid, rfl, rfl, rfl⟩ := h
  exact ⟨_, Nat.le_add_right_of_le hvalid.1, rfl⟩

theorem effect_response {r : Except String TokenResponse}
    (h : guarded.Effect .response x r y) : (∀ answer, r = .ok answer →
      ∃ t, x.asked ≤ t ∧ y = { x with answer, answered := t }) ∧
    (∀ error, r = .error error → y = x) := by
  obtain ⟨o, w, hvalid, rfl, rfl, rfl⟩ := h
  cases hanswer : o.answer with
  | error error => simp [guarded, exec, hanswer]
  | ok answer =>
    constructor
    · intro answer' heq
      obtain rfl : answer = answer' := by simpa [guarded, exec, hanswer] using heq
      exact ⟨w.clock + o.elapsed, Nat.le_add_right_of_le hvalid.2.1,
        by simp [guarded, exec, hanswer]⟩
    · simp [guarded, exec, hanswer]

theorem effect_setToken {token : String} {r : Unit} (h : guarded.Effect (.setToken token) x r y) :
    y = { x with token } := by
  obtain ⟨o, w, -, rfl, rfl, rfl⟩ := h
  rfl

theorem effect_setTokenExpires {t : Int} {r : Unit}
    (h : guarded.Effect (.setTokenExpires t) x r y) :
    y = { x with tokenExpires := t,
                 issued := ⟨x.answer, x.asked, x.answered, x.seen, t⟩ :: x.issued } := by
  obtain ⟨o, w, -, rfl, rfl, rfl⟩ := h
  rfl

theorem uses_perform {Q : List (Made FcmCall FcmCall.Reply) → Place Cache → α → Prop} {c : FcmCall}
    {f : c.Reply → FcmProg α} (hrole : role c = .plain) (hallowed : Allowed made (.inside x) c)
    (h : ∀ r y, guarded.Effect c x r y → x.Later y ∧
      guarded.Uses Allowed Q (f r) (made ++ [⟨c, r⟩]) (.inside y)) :
    guarded.Uses Allowed Q (c.perform >>= f) made (.inside x) :=
  (uses_inside hrole).mpr ⟨hallowed, h⟩

theorem later_of_issued_eq (h : y.issued = x.issued) : x.Later y :=
  ⟨h ▸ List.suffix_rfl, by rw [h]; exact id⟩

def Ready (made : List (Made FcmCall FcmCall.Reply)) (place : Place Cache)
    (result : Except String String) : Prop :=
  ∃ x, place = .inside x ∧ x.InOrder ∧ ∀ token, result = .ok token → Has made x token

theorem Cache.InOrder.congr (h : x.InOrder) (htoken : y.token = x.token)
    (hexpires : y.tokenExpires = x.tokenExpires) (hissued : y.issued = x.issued) : y.InOrder where
  empty := by
    rw [hissued, htoken]
    exact h.empty
  last := by
    rw [hissued, htoken, hexpires]
    exact h.last
  regular := by
    rw [hissued]
    exact h.regular

theorem store_inOrder (horder : x.InOrder) {i : Issue} (hi : i.Regular) :
    Cache.InOrder { x with
      token := i.answer.accessToken, tokenExpires := i.expires, issued := i :: x.issued } where
  empty := by simp
  last := by
    rintro i' rest heq
    obtain ⟨rfl, rfl⟩ := List.cons.inj heq
    exact ⟨rfl, rfl⟩
  regular := List.forall_mem_cons.mpr ⟨hi, horder.regular⟩

theorem spaced_cons {issued : List Issue} {seen : Nat} (hstale : Stale issued seen) {i : Issue}
    (hasked : seen ≤ i.asked) (h : Spaced issued) : Spaced (i :: issued) := by
  cases issued with
  | nil => exact .singleton i
  | cons before rest =>
    refine .cons_cons (fun hne => ?_) h
    have hexpires := hstale before rest rfl hne
    omega

theorem exchangeToken_uses (horder : x.InOrder) (hstale : Stale x.issued x.seen) :
    guarded.Uses Allowed Ready exchangeToken made (.inside x) := by
  refine uses_perform rfl trivial fun jwt y heffect => ?_
  obtain rfl := effect_createAssertion heffect
  refine ⟨later_of_issued_eq rfl, ?_⟩
  cases jwt with
  | error error => exact ⟨y, rfl, horder, by simp⟩
  | ok jwt =>
  refine uses_perform rfl ⟨y, rfl, hstale⟩ fun asked y₁ heffect => ?_
  obtain ⟨t, ht, rfl⟩ := effect_request heffect
  refine ⟨later_of_issued_eq rfl, ?_⟩
  cases asked with
  | error error => exact ⟨_, rfl, horder.congr rfl rfl rfl, by simp⟩
  | ok _ =>
  refine uses_perform rfl rfl fun answer y₂ heffect => ?_
  obtain ⟨hok, herror⟩ := effect_response heffect
  cases answer with
  | error error =>
    obtain rfl := herror error rfl
    exact ⟨later_of_issued_eq rfl, _, rfl, horder.congr rfl rfl rfl, by simp⟩
  | ok answer =>
  obtain ⟨t', ht', rfl⟩ := hok answer rfl
  refine ⟨later_of_issued_eq rfl, ?_⟩
  refine uses_perform rfl trivial fun _ y₃ heffect => ?_
  obtain rfl := effect_setToken heffect
  refine ⟨later_of_issued_eq rfl, ?_⟩
  refine uses_perform rfl trivial fun now y₄ heffect => ?_
  obtain ⟨hnow, rfl⟩ := effect_now heffect
  refine ⟨later_of_issued_eq rfl, ?_⟩
  refine uses_perform rfl trivial fun _ y₅ heffect => ?_
  obtain rfl := effect_setTokenExpires heffect
  refine ⟨⟨List.suffix_cons _ _, spaced_cons hstale ht⟩, ?_⟩
  refine uses_perform rfl trivial fun token y₆ heffect => ?_
  obtain ⟨rfl, rfl⟩ := effect_token heffect
  refine ⟨later_of_issued_eq rfl, ?_⟩
  have hregular : Issue.Regular ⟨answer, t, t', now, now + lifetime answer.expiresIn⟩ :=
    ⟨ht', hnow, rfl⟩
  refine ⟨_, rfl, (store_inOrder horder hregular).congr rfl rfl rfl, ?_⟩
  rintro token heq
  obtain rfl := Except.ok.inj heq
  exact ⟨_, List.mem_cons_self, hregular, rfl, .inl (by simp)⟩

theorem currentToken_uses (horder : x.InOrder) :
    guarded.Uses Allowed Ready currentToken made (.inside x) := by
  refine uses_perform rfl trivial fun token y heffect => ?_
  obtain ⟨rfl, rfl⟩ := effect_token heffect
  refine ⟨later_of_issued_eq rfl, ?_⟩
  by_cases hempty : y.token = ""
  · rw [if_pos hempty]
    refine exchangeToken_uses horder fun i rest hissued hne => ?_
    exact absurd ((horder.last i rest hissued).1.symm.trans hempty) hne
  · rw [if_neg hempty]
    refine uses_perform rfl trivial fun now y₁ heffect => ?_
    obtain ⟨-, rfl⟩ := effect_now heffect
    refine ⟨later_of_issued_eq rfl, ?_⟩
    refine uses_perform rfl trivial fun expires y₂ heffect => ?_
    obtain ⟨rfl, rfl⟩ := effect_tokenExpires heffect
    refine ⟨later_of_issued_eq rfl, ?_⟩
    have horder' : Cache.InOrder { y with seen := now } := horder.congr rfl rfl rfl
    by_cases hgood : (now : Int) < y.tokenExpires
    · simp only [hgood, decide_true, Prog.pure_eq, Prog.ret_bind, if_true]
      refine uses_perform rfl trivial fun token y₃ heffect => ?_
      obtain ⟨rfl, rfl⟩ := effect_token heffect
      refine ⟨later_of_issued_eq rfl, _, rfl, horder', ?_⟩
      rintro token heq
      obtain rfl := Except.ok.inj heq
      cases hissued : y.issued with
      | nil => exact absurd (horder.empty hissued) hempty
      | cons i rest =>
        obtain ⟨htoken, hexpires⟩ := horder.last i rest hissued
        exact ⟨i, by simp, horder.regular i (by simp [hissued]), htoken.symm,
          .inr ⟨now, by simp, hexpires ▸ hgood⟩⟩
    · simp only [hgood, decide_false, Prog.pure_eq, Prog.ret_bind, Bool.false_eq_true, if_false]
      refine exchangeToken_uses horder' fun i rest hissued _ => ?_
      rw [← (horder.last i rest hissued).2]
      exact not_lt.mp hgood

theorem getToken_uses (x : Cache) : guarded.Uses Allowed
    (fun made place result => ∃ x, place = .outside x ∧
      ∀ token, result = .ok token → Obtained made x token) getToken made (.outside x) := by
  refine (uses_lock rfl).mpr ⟨trivial, fun _ y _ horder => ?_⟩
  refine (currentToken_uses horder).bind ?_
  rintro made place result ⟨x, rfl, horder, hhas⟩
  refine (uses_unlock rfl).mpr ⟨trivial, horder, fun _ => ⟨x, rfl, fun token heq => ?_⟩⟩
  exact ⟨made, [], rfl, List.not_mem_nil, hhas token heq⟩

theorem send_uses (projectID : String) (m : PushMessage) (x : Cache) : guarded.Uses Allowed
    (fun _ place _ => place.isInside = false) (send projectID m) [] (.outside x) := by
  refine (getToken_uses x).bind ?_
  rintro made place result ⟨x, rfl, hobtained⟩
  cases result with
  | error error => exact rfl
  | ok token =>
  by_cases hrecipient : orData m m.recipient "fcm_token" = ""
  · simp only [hrecipient, if_true]
    exact rfl
  simp only [hrecipient, if_false]
  refine (uses_outside rfl).mpr ⟨⟨x, token, rfl, rfl, hobtained token rfl⟩, ?_, ?_⟩
  · rintro x r y ⟨o, w, -, rfl, rfl, rfl⟩
    rfl
  rintro (error | ⟨status, body⟩)
  · exact rfl
  by_cases hstatus : status = 200
  · simp only [Prog.bind, hstatus, ne_eq, not_true, if_false]
    refine (uses_outside rfl).mpr ⟨trivial, ?_, fun _ => rfl⟩
    rintro x r y ⟨o, w, -, rfl, rfl, rfl⟩
    rfl
  · simp only [Prog.bind, ne_eq, hstatus, not_false_iff, if_true]
    exact rfl

end

/-- `Send` begins for a message, and nobody takes the mutex while it is held. -/
def Admits (projectID : String)
    (w : Threads FcmCall FcmCall.Reply (Except String ProviderResult) State) :
    ThreadEvent FcmCall FcmCall.Reply (Except String ProviderResult) State Answers → Prop
  | .start p => ∃ m, p = send projectID m
  | .call i _ => ∀ k, w.threads[i]? = some (.call .lock k) → w.state.held = false
  | .other _ => False

def fresh (clock : Nat) (zero : Int) : State := ⟨⟨"", zero, 0, 0, ⟨"", 0⟩, 0, []⟩, false, clock⟩

variable {projectID : String} {clock : Nat} {zero : Int}
  {w w' : Threads FcmCall FcmCall.Reply (Except String ProviderResult) State}
  {es : List (ThreadEvent FcmCall FcmCall.Reply (Except String ProviderResult) State Answers)}

theorem guarded_admits {e : ThreadEvent FcmCall FcmCall.Reply (Except String ProviderResult) State
    Answers} (h : Admits projectID w e) :
    guarded.Admits Allowed (fun _ place _ => place.isInside = false) w e := by
  cases e with
  | start p =>
    obtain ⟨m, rfl⟩ := h
    exact send_uses projectID m
  | call i o =>
    intro c k hthread hrole
    cases c <;> simp [guarded, role] at hrole
    exact h k hthread
  | other s => exact h

theorem fresh_valid (clock : Nat) (zero : Int) : guarded.valid (fresh clock zero) :=
  ⟨Nat.zero_le _, Nat.zero_le _, Nat.zero_le _⟩

theorem fresh_inOrder (clock : Nat) (zero : Int) : (fresh clock zero).cache.InOrder :=
  ⟨fun _ => rfl, by simp [fresh], by simp [fresh]⟩

theorem Obtained.mono {made : List (Made FcmCall FcmCall.Reply)} {x y : Cache} {token : String}
    (h : Obtained made x token) (hlater : x.Later y) : Obtained made y token := by
  obtain ⟨before, after, hmade, hreleased, i, hi, hrest⟩ := h
  exact ⟨before, after, hmade, hreleased, i, hlater.issued.subset hi, hrest⟩

/-- **Where the token of a message comes from.** However many messages are sent at once, each is
posted after its own release of the mutex, with the token of an answer that is stored: the answer to
an exchange of its own, or one whose token was to be kept for longer when it read the clock. -/
theorem posted_with_token {m : PushMessage}
    {es₀ : List (ThreadEvent FcmCall FcmCall.Reply (Except String ProviderResult) State Answers)}
    (hstart : Run (Threads.step exec) (Admits projectID) ⟨fresh clock zero, []⟩ es₀ w)
    (hrun : Run (Threads.step exec) (Admits projectID) (w.start (send projectID m)) es w')
    {r : FcmRequest} {k : FcmCall.Reply (.post r) → FcmProg (Except String ProviderResult)}
    (hpost : w'.threads[w.threads.length]? = some (.call (.post r) k)) :
    ∃ token, r.authorization = "Bearer " ++ token ∧ Obtained
      (Threads.calls exec w.threads.length (w.start (send projectID m)) es)
      w'.state.cache token := by
  obtain ⟨place, hagrees, huses⟩ := uses_started (A := guarded) (fresh_valid clock zero)
    (fresh_inOrder clock zero) (hstart.mono fun _ _ => guarded_admits) (send_uses projectID m)
    (hrun.mono fun _ _ => guarded_admits) hpost
  cases place with
  | outside x =>
    obtain ⟨⟨_, token, hplace, hauthorization, hobtained⟩, -⟩ := (uses_outside rfl).mp huses
    obtain rfl := Place.outside.inj hplace
    exact ⟨token, hauthorization, hobtained.mono hagrees⟩
  | inside x =>
    obtain ⟨⟨_, _, hplace, -⟩, -⟩ := (uses_inside rfl).mp huses
    cases hplace

def sampleMessage : PushMessage := ⟨"device", "Hello", "", .empty⟩

def sampleAnswers (elapsed : Nat) : Answers :=
  ⟨elapsed, .ok "jwt", .ok (), .ok ⟨"ya29", 3600⟩, .ok (200, "")⟩

def sampleCalls (i elapsed calls : Nat) :
    List (ThreadEvent FcmCall FcmCall.Reply (Except String ProviderResult) State Answers) :=
  .call i (sampleAnswers elapsed) :: List.replicate (calls - 1) (.call i (sampleAnswers 5))

def admitsCall (w : Threads FcmCall FcmCall.Reply (Except String ProviderResult) State) :
    ThreadEvent FcmCall FcmCall.Reply (Except String ProviderResult) State Answers → Bool
  | .call i _ =>
      match w.threads[i]? with
      | some (.call .lock _) => !w.state.held
      | _ => true
  | _ => false

theorem admits_of_admitsCall (projectID : String)
    (w : Threads FcmCall FcmCall.Reply (Except String ProviderResult) State)
    (e : ThreadEvent FcmCall FcmCall.Reply (Except String ProviderResult) State Answers)
    (h : admitsCall w e = true) : Admits projectID w e := by
  cases e with
  | start p => simp [admitsCall] at h
  | call i o =>
    intro k hthread
    simpa [admitsCall, hthread] using h
  | other s => simp [admitsCall] at h

def sampleStart : Threads FcmCall FcmCall.Reply (Except String ProviderResult) State :=
  Threads.start ⟨fresh 1000 0, []⟩ (send "p1" sampleMessage)

/-- The second message is about to be posted, and there has been one exchange. -/
def atSecondPost (w : Threads FcmCall FcmCall.Reply (Except String ProviderResult) State) : Bool :=
  match w.threads with
  | [_, .call (.post r) _] =>
      r.authorization == "Bearer ya29" && w.state.cache.issued.length == 1
  | _ => false

theorem run_start {m : PushMessage}
    (h : Run (Threads.step exec) (Admits projectID) (w.start (send projectID m)) es w') :
    Run (Threads.step exec) (Admits projectID) w (.start (send projectID m) :: es) w' :=
  .cons (show Admits projectID w (.start (send projectID m)) from ⟨m, rfl⟩) rfl h

/-- The second message goes with the token of the first. -/
theorem posted_with_token_kept : ∃ es₀ w es w' r k token,
    Run (Threads.step exec) (Admits "p1") ⟨fresh 1000 0, []⟩ es₀ w ∧
      Run (Threads.step exec) (Admits "p1") (w.start (send "p1" sampleMessage)) es w' ∧
      w'.threads[w.threads.length]? = some (.call (.post r) k) ∧
      r.authorization = "Bearer ya29" ∧ w'.state.cache.issued.length = 1 ∧
      r.authorization = "Bearer " ++ token ∧ Obtained
        (Threads.calls exec w.threads.length (w.start (send "p1" sampleMessage)) es)
        w'.state.cache token := by
  have hexecuted : (execute (Threads.step exec) admitsCall sampleStart (sampleCalls 0 5 12)).any
      (fun w => w.threads.length == 1 && (execute (Threads.step exec) admitsCall
        (w.start (send "p1" sampleMessage)) (sampleCalls 1 5 6)).any atSecondPost) = true := by
    decide +kernel
  obtain ⟨w, hfirst, hsecond⟩ := Run.exists_of_execute (admits_of_admitsCall "p1") hexecuted
  rw [Bool.and_eq_true, beq_iff_eq] at hsecond
  obtain ⟨w', hrun, hat⟩ := Run.exists_of_execute (admits_of_admitsCall "p1") hsecond.2
  unfold atSecondPost at hat
  split at hat
  · next r k hthreads =>
    rw [Bool.and_eq_true, beq_iff_eq, beq_iff_eq] at hat
    have hpost : w'.threads[w.threads.length]? = some (.call (.post r) k) := by
      rw [hsecond.1, hthreads]
      rfl
    obtain ⟨token, htoken, hobtained⟩ := posted_with_token (run_start hfirst) hrun hpost
    exact ⟨_, w, _, w', r, k, token, run_start hfirst, hrun, hpost, hat.1, hat.2, htoken,
      hobtained⟩
  · simp at hat

/-- **One exchange at a time, and none too early.** However many messages are sent at once, at most
one of them waits for a token, and no exchange is asked for, whatever becomes of it, as long as the
token of the last answer is kept, unless that is empty. -/
theorem exchanges_spaced
    (hrun : Run (Threads.step exec) (Admits projectID) ⟨fresh clock zero, []⟩ es w) :
    w.threads.countP (fun p => p.next? matches some .response) ≤ 1 ∧
      Spaced w.state.cache.issued ∧
      ∀ before i o after u jwt k, es = before ++ .call i o :: after →
        Run (Threads.step exec) (Admits projectID) ⟨fresh clock zero, []⟩ before u →
        u.threads[i]? = some (.call (.request jwt) k) →
        Stale u.state.cache.issued u.state.clock := by
  obtain ⟨hcount, hlater⟩ := at_most_one (A := guarded) (fresh_valid clock zero)
    (fresh_inOrder clock zero) (hrun.mono fun _ _ => guarded_admits)
    (P := fun p => p.next? matches some .response) (by
      rintro made x (a | ⟨c, k⟩) huses
      · rfl
      · cases c <;> first | rfl | exact absurd ((uses_outside rfl).mp huses).1 Bool.false_ne_true)
  refine ⟨hcount, hlater.spaced .nil, ?_⟩
  rintro before i o after u jwt k - hbefore hrequest
  obtain ⟨hvalid, made, place, hagrees, huses⟩ := uses_reached (A := guarded)
    (fresh_valid clock zero) (fresh_inOrder clock zero) (hbefore.mono fun _ _ => guarded_admits)
    hrequest
  cases place with
  | outside x =>
    obtain ⟨⟨_, hplace, -⟩, -⟩ := (uses_outside rfl).mp huses
    cases hplace
  | inside x =>
    obtain ⟨⟨_, hplace, hstale⟩, -⟩ := (uses_inside rfl).mp huses
    obtain rfl := Place.inside.inj hplace
    obtain ⟨rfl, -⟩ := hagrees
    intro i rest hissued hne
    have hexpires : i.expires ≤ u.state.cache.seen := hstale i rest hissued hne
    have hseen : u.state.cache.seen ≤ u.state.clock := hvalid.1
    omega

/-- The token of the first message has expired when the second one is sent. -/
theorem exchanges_spaced_expired : ∃ es w,
    Run (Threads.step exec) (Admits "p1") ⟨fresh 1000 0, []⟩ es w ∧
      w.state.cache.issued.length = 2 ∧ Spaced w.state.cache.issued := by
  have hexecuted : (execute (Threads.step exec) admitsCall sampleStart (sampleCalls 0 5 12)).any
      (fun w => (execute (Threads.step exec) admitsCall (w.start (send "p1" sampleMessage))
        (sampleCalls 1 (3540 * 10 ^ 9) 11)).any fun w => w.state.cache.issued.length == 2) =
      true := by decide +kernel
  obtain ⟨w, hfirst, hsecond⟩ := Run.exists_of_execute (admits_of_admitsCall "p1") hexecuted
  obtain ⟨w', hrun, hlength⟩ := Run.exists_of_execute (admits_of_admitsCall "p1") hsecond
  have hboth := (run_start hfirst).append (run_start hrun)
  obtain ⟨-, hspaced, -⟩ := exchanges_spaced hboth
  exact ⟨_, w', hboth, beq_iff_eq.mp hlength, hspaced⟩

end FCMV1Provider

end NotificationPlatform
