import NotificationPlatform.Lib.Ticket
import NotificationPlatform.Credentials

/-!
# One-time tokens and concurrent requests

A request that presents a one-time token selects it and then marks it as spent, in two statements.
Each token is a ticket of its own, and every request is a party to the ticket of its token.
-/

namespace NotificationPlatform

open Lib

def AuthRequest.presents (cfg : AuthConfig) (kind : TokenKind) (hash : String) :
    AuthRequest → Bool
  | .resetPassword token _ => kind == .passwordReset && cfg.hashSecret token == hash
  | .verifyEmail token => kind == .emailVerification && cfg.hashSecret token == hash
  | .connect token => kind == .webSocket && cfg.hashSecret token == hash
  | .login _ _ _ _ | .refresh _ _ _ | .revoke _ => false

/-- The password was changed, the email verified, or the connection authorised as `ws_token`. -/
def AuthAnswer.accepts : AuthAnswer → Bool
  | .response r => r.status == 200
  | .connection (some (.wsToken, _)) => true
  | _ => false

def AuthThread.accepted (cfg : AuthConfig) (kind : TokenKind) (hash : String)
    (th : AuthThread) : Bool :=
  th.req.presents cfg kind hash &&
    match th.prog with
    | .ret a => a.accepts
    | .call _ _ => false

def AuthThread.holds (cfg : AuthConfig) (kind : TokenKind) (hash : String)
    (th : AuthThread) : Bool :=
  th.req.presents cfg kind hash &&
    match th.prog.next? with
    | some (.hashPassword _) | some (.spendToken _ _) => true
    | _ => false

/-- The requests present one-time tokens. No request looks its token up and finds it while another
one has found it and not spent it yet, and the update of a websocket token does not fail. -/
def singly (cfg : AuthConfig) (w : AuthWorld) : AuthEvent → Bool
  | .start (.resetPassword _ _) | .start (.verifyEmail _) | .start (.connect _) => true
  | .start _ => false
  | .call i o =>
      match (w.threads[i]?).bind fun th => th.prog.next? with
      | some (.selectToken kind hash) =>
          (w.db.selectToken kind hash).isNone || w.threads.all fun th => !th.holds cfg kind hash
      | some (.spendToken .webSocket _) => !o.fail
      | _ => true
  | .clock _ | .roles _ _ _ => true

def onAnswer {α : Type} (ok : Ticket.Stage) : Except String α → Ticket.Stage
  | .ok _ => ok
  | .error _ => .refused

@[simp] theorem onAnswer_error {α : Type} (ok : Ticket.Stage) (e : String) :
    onAnswer ok (.error e : Except String α) = .refused := rfl

/-- The statements of a request, as the ticket of one token sees them. -/
inductive TokenProtocol (kind : TokenKind) (hash : String) :
    Ticket.Stage → (s : AuthStmt) → (AuthReply s → Ticket.Stage) → Prop
  | lookup : TokenProtocol kind hash .looking (.selectToken kind hash) (onAnswer .holding)
  | hashPassword (password : String) :
      TokenProtocol kind hash .holding (.hashPassword password) (onAnswer .holding)
  | consume : TokenProtocol kind hash .holding (.spendToken kind hash) (onAnswer .spent)
  | use (hkind : kind = .webSocket) :
      TokenProtocol kind hash .holding (.spendToken kind hash) fun _ => .accepted
  | setPassword (userID : Nat) (password : String) :
      TokenProtocol kind hash .spent (.setPassword userID password) (onAnswer .accepted)
  | setEmailVerified (userID : Nat) :
      TokenProtocol kind hash .spent (.setEmailVerified userID) (onAnswer .accepted)
  | other (s : AuthStmt) (hs : s ≠ .spendToken kind hash) :
      TokenProtocol kind hash .refused s fun _ => .refused

/-- The answers a request ends with: it is accepted with its token at the last stage only, and does
not end while it holds the token. -/
def EndsAt (presents : Bool) (stage : Ticket.Stage) (a : AuthAnswer) : Prop :=
  stage ≠ .holding ∧ (presents = true → a.accepts = true → stage = .accepted)

structure AtStage (cfg : AuthConfig) (kind : TokenKind) (hash : String) (stage : Ticket.Stage)
    (th : AuthThread) : Prop where
  presents : stage ≠ .refused → th.req.presents cfg kind hash = true
  follows : Prog.Follows (TokenProtocol kind hash) (EndsAt (th.req.presents cfg kind hash)) stage
    th.prog

theorem endsAt_of_error {presents : Bool} {stage : Ticket.Stage} {status : Nat} {message : String}
    (hstage : stage ≠ .holding) (hstatus : status ≠ 200) :
    EndsAt presents stage (.response (.error status message)) := by
  refine ⟨hstage, ?_⟩
  intro _ haccepts
  exact absurd (beq_iff_eq.mp haccepts) hstatus

section

variable {cfg : AuthConfig} {kind : TokenKind} {hash : String}

private theorem consumeThen_follows {write : AuthStmt} {unspent unwritten done : String}
    {Q : Ticket.Stage → AuthAnswer → Prop}
    (hwrite : TokenProtocol kind hash .spent write (onAnswer .accepted))
    (hrefused : ∀ message, Q .refused (.response (.error 500 message)))
    (hdone : Q .accepted (.response (.message 200 done))) :
    Prog.Follows (TokenProtocol kind hash) Q .holding
      (Auth.consumeThen kind hash write unspent unwritten done >>= fun r => .ret (.response r)) := by
  refine Prog.follows_call _ .consume ?_
  rintro (e | -)
  · exact hrefused unspent
  refine Prog.follows_call _ hwrite ?_
  rintro (e | -)
  · exact hrefused unwritten
  · exact hdone

theorem resetPassword_atStage (cfg : AuthConfig) (token password : String) :
    AtStage cfg .passwordReset (cfg.hashSecret token) .looking
      ⟨.resetPassword token password, (AuthRequest.resetPassword token password).prog cfg⟩ where
  presents := by simp [AuthRequest.presents]
  follows := by
    unfold AuthRequest.prog
    dsimp only
    unfold Auth.resetPassword
    split
    · exact endsAt_of_error (by simp) (by simp)
    · split
      · exact endsAt_of_error (by simp) (by simp)
      · refine Prog.follows_call _ .lookup ?_
        rintro (e | userID)
        · exact endsAt_of_error (by simp) (by simp)
        refine Prog.follows_call _ (.hashPassword password) ?_
        rintro (e | stored)
        · exact endsAt_of_error (by simp) (by simp)
        apply consumeThen_follows (.setPassword userID stored)
        · intro message
          exact endsAt_of_error (by simp) (by simp)
        · exact ⟨by simp, fun _ _ => rfl⟩

theorem verifyEmail_atStage (cfg : AuthConfig) (token : String) :
    AtStage cfg .emailVerification (cfg.hashSecret token) .looking
      ⟨.verifyEmail token, (AuthRequest.verifyEmail token).prog cfg⟩ where
  presents := by simp [AuthRequest.presents]
  follows := by
    unfold AuthRequest.prog
    dsimp only
    unfold Auth.verifyEmail
    split
    · exact endsAt_of_error (by simp) (by simp)
    · refine Prog.follows_call _ .lookup ?_
      rintro (e | userID)
      · exact endsAt_of_error (by simp) (by simp)
      apply consumeThen_follows (.setEmailVerified userID)
      · intro message
        exact endsAt_of_error (by simp) (by simp)
      · exact ⟨by simp, fun _ _ => rfl⟩

theorem connect_atStage (cfg : AuthConfig) (token : String) :
    AtStage cfg .webSocket (cfg.hashSecret token) .looking
      ⟨.connect token, (AuthRequest.connect token).prog cfg⟩ where
  presents := by simp [AuthRequest.presents]
  follows := by
    refine Prog.follows_call _ .lookup ?_
    rintro (e | client)
    · refine Prog.follows_call _ (.other .now (by simp)) ?_
      rintro (e | now)
      · exact ⟨by simp, by simp [AuthAnswer.accepts]⟩
      · dsimp only [onAnswer, Prog.bind]
        split
        · exact ⟨by simp, by simp [AuthAnswer.accepts]⟩
        · exact ⟨by simp, by simp [AuthAnswer.accepts]⟩
    · refine Prog.follows_call _ (.use rfl) ?_
      intro r
      exact ⟨by simp, fun _ _ => rfl⟩

private theorem consumeThen_foreign {kind' : TokenKind} {hash' : String} {write : AuthStmt}
    {unspent unwritten done : String} {Q : Ticket.Stage → AuthAnswer → Prop}
    (hspend : AuthStmt.spendToken kind' hash' ≠ .spendToken kind hash)
    (hwrite : write ≠ .spendToken kind hash) (hQ : ∀ a, Q .refused a) :
    Prog.Follows (TokenProtocol kind hash) Q .refused
      (Auth.consumeThen kind' hash' write unspent unwritten done >>= fun r => .ret (.response r)) := by
  refine Prog.follows_call _ (.other _ hspend) ?_
  rintro (e | -)
  · exact hQ _
  refine Prog.follows_call _ (.other _ hwrite) ?_
  rintro (e | -)
  · exact hQ _
  · exact hQ _

theorem foreign_atStage {req : AuthRequest} (hreq : req.presents cfg kind hash = false)
    (hkind : (∃ token password, req = .resetPassword token password) ∨
      (∃ token, req = .verifyEmail token) ∨ ∃ token, req = .connect token) :
    AtStage cfg kind hash .refused ⟨req, req.prog cfg⟩ := by
  refine ⟨fun h => absurd rfl h, ?_⟩
  have hall : ∀ a, EndsAt (req.presents cfg kind hash) .refused a := by
    intro a
    refine ⟨by simp, ?_⟩
    intro hpresents
    simp [hreq] at hpresents
  rcases hkind with ⟨token, password, rfl⟩ | ⟨token, rfl⟩ | ⟨token, rfl⟩
  · have hspend : AuthStmt.spendToken .passwordReset (cfg.hashSecret token) ≠
            .spendToken kind hash := by
      rintro heq
      obtain ⟨rfl, rfl⟩ := AuthStmt.spendToken.inj heq
      simp [AuthRequest.presents] at hreq
    unfold AuthRequest.prog
    dsimp only
    unfold Auth.resetPassword
    split
    · exact hall _
    · split
      · exact hall _
      · refine Prog.follows_call _ (.other _ (by simp)) ?_
        rintro (e | userID)
        · exact hall _
        refine Prog.follows_call _ (.other _ (by simp)) ?_
        rintro (e | stored)
        · exact hall _
        exact consumeThen_foreign hspend (by simp) hall
  · have hspend : AuthStmt.spendToken .emailVerification (cfg.hashSecret token) ≠
            .spendToken kind hash := by
      rintro heq
      obtain ⟨rfl, rfl⟩ := AuthStmt.spendToken.inj heq
      simp [AuthRequest.presents] at hreq
    unfold AuthRequest.prog
    dsimp only
    unfold Auth.verifyEmail
    split
    · exact hall _
    · refine Prog.follows_call _ (.other _ (by simp)) ?_
      rintro (e | userID)
      · exact hall _
      exact consumeThen_foreign hspend (by simp) hall
  · have hspend : AuthStmt.spendToken .webSocket (cfg.hashSecret token) ≠ .spendToken kind hash := by
      rintro heq
      obtain ⟨rfl, rfl⟩ := AuthStmt.spendToken.inj heq
      simp [AuthRequest.presents] at hreq
    refine Prog.follows_call _ (.other _ (by simp)) ?_
    rintro (e | client)
    · refine Prog.follows_call _ (.other _ (by simp)) ?_
      rintro (e | now)
      · exact hall _
      · dsimp only [onAnswer, Prog.bind]
        split <;> exact hall _
    · refine Prog.follows_call _ (.other _ hspend) ?_
      intro r
      exact hall _

theorem exists_atStage {w : AuthWorld} {req : AuthRequest} (hok : singly cfg w (.start req) = true) :
    ∃ stage : Ticket.Stage, stage.engaged = false ∧
      AtStage cfg kind hash stage ⟨req, req.prog cfg⟩ := by
  cases hpresents : req.presents cfg kind hash with
  | false =>
      refine ⟨.refused, rfl, foreign_atStage hpresents ?_⟩
      cases req with
      | resetPassword token password => exact .inl ⟨token, password, rfl⟩
      | verifyEmail token => exact .inr (.inl ⟨token, rfl⟩)
      | connect token => exact .inr (.inr ⟨token, rfl⟩)
      | _ => simp [singly] at hok
  | true =>
      refine ⟨.looking, rfl, ?_⟩
      cases req with
      | resetPassword token password =>
          obtain ⟨rfl, rfl⟩ : kind = .passwordReset ∧ cfg.hashSecret token = hash := by
            simpa [AuthRequest.presents] using hpresents
          exact resetPassword_atStage cfg token password
      | verifyEmail token =>
          obtain ⟨rfl, rfl⟩ : kind = .emailVerification ∧ cfg.hashSecret token = hash := by
            simpa [AuthRequest.presents] using hpresents
          exact verifyEmail_atStage cfg token
      | connect token =>
          obtain ⟨rfl, rfl⟩ : kind = .webSocket ∧ cfg.hashSecret token = hash := by
            simpa [AuthRequest.presents] using hpresents
          exact connect_atStage cfg token
      | _ => simp [singly] at hok

def CredDb.TokenLive (db : CredDb) (kind : TokenKind) (hash : String) : Prop :=
  ∃ id token, (db.tokens kind).get? id = some token ∧ token.tokenHash = hash ∧ token.active = true

namespace CredDb

variable {o : AuthOutcome} {db : CredDb}

theorem exec_selectToken {owner : kind.Owner}
    (h : (db.exec cfg o (.selectToken kind hash)).1 = .ok owner) :
    db.selectToken kind hash = some owner := by
  rw [exec_ok h] at h
  cases hrow : db.selectToken kind hash with
  | none => simp [answer, row, hrow] at h
  | some other =>
      simp only [answer, row, hrow] at h
      rw [Except.ok.inj h]

theorem exec_spendToken {a : Unit} (h : (db.exec cfg o (.spendToken kind hash)).1 = .ok a) :
    (db.exec cfg o (.spendToken kind hash)).2 = db.spendToken kind hash := by
  rw [exec_ok h]
  rfl

theorem exec_tokens (cfg : AuthConfig) (o : AuthOutcome) (db : CredDb) (s : AuthStmt) :
    (db.exec cfg o s).2.tokens = db.tokens ∨ ∃ kind hash, s = .spendToken kind hash ∧
      (db.exec cfg o s).2 = db.spendToken kind hash := by
  unfold exec
  split
  · exact .inl rfl
  · cases s with
    | insertSession new =>
        cases hdb : db.insertSession cfg o.newID new with
        | none =>
            simp only [answer, hdb]
            exact .inl trivial
        | some db' =>
            simp only [answer, hdb]
            unfold insertSession at hdb
            split at hdb
            · obtain rfl := Option.some.inj hdb
              exact .inl rfl
            · simp at hdb
    | spendToken kind hash => exact .inr ⟨kind, hash, rfl, rfl⟩
    | _ => exact .inl rfl

theorem serveRoles_tokens (p : Principal) (env : RoleEnv) (req : RoleRequest) :
    (db.serveRoles p env req).tokens = db.tokens :=
  (serveRoles_frame db p env req).2.2

theorem spendToken_not_live (db : CredDb) (kind : TokenKind) (hash : String) :
    ¬(db.spendToken kind hash).TokenLive kind hash := by
  rintro ⟨id, token, hid, hhash, hactive⟩
  rw [get?_spendToken] at hid
  obtain ⟨old, hold, rfl⟩ := Option.map_eq_some_iff.mp hid
  by_cases h : old.tokenHash = hash
  · simp [h] at hactive
  · rw [if_neg h] at hhash
    exact h hhash

theorem tokenLive_of_spendToken {kind kind' : TokenKind} {hash hash' : String}
    (h : (db.spendToken kind' hash').TokenLive kind hash) : db.TokenLive kind hash := by
  by_cases hkind : kind = kind'
  · subst hkind
    obtain ⟨id, token, hid, hhash, hactive⟩ := h
    rw [get?_spendToken] at hid
    obtain ⟨old, hold, rfl⟩ := Option.map_eq_some_iff.mp hid
    by_cases hh : old.tokenHash = hash'
    · simp [hh] at hactive
    · rw [if_neg hh] at hhash hactive
      exact ⟨id, old, hold, hhash, hactive⟩
  · unfold TokenLive at h ⊢
    rw [spendToken_of_ne hash' hkind] at h
    exact h

theorem tokenLive_of_exec {kind : TokenKind} {hash : String} {s : AuthStmt}
    (h : (db.exec cfg o s).2.TokenLive kind hash) : db.TokenLive kind hash := by
  rcases exec_tokens cfg o db s with hsame | ⟨kind', hash', -, hdb⟩
  · unfold TokenLive at h ⊢
    rw [hsame] at h
    exact h
  · rw [hdb] at h
    exact tokenLive_of_spendToken h

end CredDb

end

structure TokenInv (cfg : AuthConfig) (kind : TokenKind) (hash : String) (w : AuthWorld)
    (stages : List Ticket.Stage) : Prop where
  follows : List.Forall₂ (AtStage cfg kind hash) stages w.threads
  once : Ticket.Once (w.db.TokenLive kind hash) stages

section

variable {cfg : AuthConfig} {kind : TokenKind} {hash : String} {w w' : AuthWorld}
  {stages : List Ticket.Stage} {i : Nat} {o : AuthOutcome}

theorem AtStage.holds {th : AuthThread} (h : AtStage cfg kind hash .holding th) :
    th.holds cfg kind hash = true := by
  obtain ⟨req, prog⟩ := th
  have hpresents := h.presents (by simp)
  have hfollows := h.follows
  dsimp only at hpresents hfollows
  simp only [AuthThread.holds, hpresents, Bool.true_and]
  cases prog with
  | ret a => exact absurd rfl hfollows.1
  | call s k =>
      obtain ⟨f, hf, -⟩ := hfollows
      cases hf <;> rfl

theorem TokenInv.set {s s' : Ticket.Stage} {th th' : AuthThread}
    (h : TokenInv cfg kind hash w stages) (hat : AtStage cfg kind hash s th)
    (hthreads : w'.threads = w.threads.set i th') (hreq : th'.req = th.req)
    (hfollows : Prog.Follows (TokenProtocol kind hash) (EndsAt (th.req.presents cfg kind hash)) s'
      th'.prog)
    (hfar : s = .refused → s' = .refused)
    (hmove : Ticket.Moves (w.db.TokenLive kind hash) (w'.db.TokenLive kind hash) stages i s s') :
    TokenInv cfg kind hash w' (stages.set i s') where
  follows := by
    rw [hthreads]
    refine forall₂_set h.follows i ⟨?_, ?_⟩
    · intro hs'
      rw [hreq]
      exact hat.presents fun hs => hs' (hfar hs)
    · rw [hreq]
      exact hfollows
  once := h.once.move hmove

theorem onAnswer_cases {α : Type} (ok : Ticket.Stage) (r : Except String α) :
    (∃ a, r = .ok a ∧ onAnswer ok r = ok) ∨ onAnswer ok r = .refused := by
  cases r with
  | ok a => exact .inl ⟨a, rfl, rfl⟩
  | error e => exact .inr rfl

theorem moves_refused {live live' : Prop} {s : Ticket.Stage} (hstage : stages[i]? = some s)
    (hs : s ≠ .accepted) (hdies : live' → live) : Ticket.Moves live live' stages i s .refused where
  before := hstage
  unfinished := hs
  engages := by simp [Ticket.Stage.engaged]
  spends := by simp [Ticket.Stage.late]
  dies := hdies

theorem TokenInv.moves {s : AuthStmt} {stage : Ticket.Stage} {f : AuthReply s → Ticket.Stage}
    {th : AuthThread} (h : TokenInv cfg kind hash w stages) (hstage : stages[i]? = some stage)
    (hf : TokenProtocol kind hash stage s f) (hi : w.threads[i]? = some th)
    (hnext : th.prog.next? = some s) (hok : singly cfg w (.call i o) = true) :
    Ticket.Moves (w.db.TokenLive kind hash) ((w.db.exec cfg o s).2.TokenLive kind hash) stages i
      stage (f (w.db.exec cfg o s).1) := by
  have hdies : (w.db.exec cfg o s).2.TokenLive kind hash → w.db.TokenLive kind hash :=
    CredDb.tokenLive_of_exec
  simp only [singly, hi, Option.bind_some, hnext] at hok
  cases hf with
  | lookup =>
      rcases onAnswer_cases .holding (w.db.exec cfg o (.selectToken kind hash)).1 with
        ⟨owner, hr, heq⟩ | heq
      · rw [heq]
        have hfound : w.db.selectToken kind hash = some owner := CredDb.exec_selectToken hr
        obtain ⟨id, token, hid, hhash, hactive, -, -⟩ := CredDb.selectToken_eq_some hfound
        refine ⟨hstage, by simp, fun _ => .inr ⟨⟨id, token, hid, hhash, hactive⟩, ?_⟩,
          by simp [Ticket.Stage.late], hdies⟩
        rintro x hx rfl
        obtain ⟨other, hother, hat⟩ := exists_of_mem_forall₂ h.follows hx
        rcases Bool.or_eq_true_iff.mp hok with hnot | hnone
        · simp [hfound] at hnot
        · have hheld := List.all_eq_true.mp hnone other hother
          simp [hat.holds] at hheld
      · rw [heq]
        exact moves_refused hstage (by simp) hdies
  | hashPassword password =>
      rcases onAnswer_cases .holding (w.db.exec cfg o (.hashPassword password)).1 with
        ⟨-, -, heq⟩ | heq
      · rw [heq]
        exact ⟨hstage, by simp, fun _ => .inl rfl, by simp [Ticket.Stage.late], hdies⟩
      · rw [heq]
        exact moves_refused hstage (by simp) hdies
  | consume =>
      rcases onAnswer_cases .spent (w.db.exec cfg o (.spendToken kind hash)).1 with
        ⟨a, hr, heq⟩ | heq
      · rw [heq]
        refine ⟨hstage, by simp, fun _ => .inl rfl, fun _ => .inr ?_, hdies⟩
        rw [CredDb.exec_spendToken hr]
        exact w.db.spendToken_not_live kind hash
      · rw [heq]
        exact moves_refused hstage (by simp) hdies
  | use hkind =>
      subst hkind
      have hfail : o.fail = false := by simpa using hok
      refine ⟨hstage, by simp, fun _ => .inl rfl, fun _ => .inr ?_, hdies⟩
      have hdb : (w.db.exec cfg o (.spendToken .webSocket hash)).2 =
          w.db.spendToken .webSocket hash := by simp [CredDb.exec, hfail, CredDb.answer]
      rw [hdb]
      exact w.db.spendToken_not_live .webSocket hash
  | setPassword userID password =>
      rcases onAnswer_cases .accepted (w.db.exec cfg o (.setPassword userID password)).1 with
        ⟨-, -, heq⟩ | heq
      · rw [heq]
        exact ⟨hstage, by simp, fun _ => .inl rfl, fun _ => .inl rfl, hdies⟩
      · rw [heq]
        exact moves_refused hstage (by simp) hdies
  | setEmailVerified userID =>
      rcases onAnswer_cases .accepted (w.db.exec cfg o (.setEmailVerified userID)).1 with
        ⟨-, -, heq⟩ | heq
      · rw [heq]
        exact ⟨hstage, by simp, fun _ => .inl rfl, fun _ => .inl rfl, hdies⟩
      · rw [heq]
        exact moves_refused hstage (by simp) hdies
  | other s hs => exact moves_refused hstage (by simp) hdies

theorem TokenInv.step {e : AuthEvent} (h : TokenInv cfg kind hash w stages)
    (hok : singly cfg w e = true) (hstep : w.step cfg e = some w') :
    ∃ stages', TokenInv cfg kind hash w' stages' := by
  rcases AuthWorld.step_cases hstep with ⟨req, rfl, rfl⟩ | ⟨i, o, req, s, k, rfl, hi, rfl⟩ |
    ⟨seconds, -, rfl⟩ | ⟨p, env, req, -, rfl⟩
  · obtain ⟨stage, hengaged, hat⟩ := exists_atStage hok
    exact ⟨stages ++ [stage], List.rel_append h.follows (.cons hat .nil), h.once.arrive hengaged⟩
  · obtain ⟨stage, hstage, hat⟩ := exists_getElem?_of_forall₂ h.follows hi
    obtain ⟨f, hf, hk⟩ := hat.follows
    have hmoves := h.moves hstage hf hi rfl hok
    refine ⟨_, h.set hat rfl rfl (hk _) ?_ hmoves⟩
    rintro rfl
    cases hf
    rfl
  · exact ⟨stages, h.follows, h.once⟩
  · refine ⟨stages, h.follows, ?_⟩
    have hsame : (w.db.serveRoles p env req).tokens = w.db.tokens := CredDb.serveRoles_tokens p env req
    simpa only [CredDb.TokenLive, hsame] using h.once

end

namespace AuthWorld

/-- With each kind of token, at most one of the requests that present it is accepted: in every
interleaving in which no request finds the token while another one has found it and not spent it,
and no update of a websocket token fails. -/
theorem one_time_once {cfg : AuthConfig} {db : CredDb} {es : List AuthEvent} {w : AuthWorld}
    (hrun : (fresh db).RunOf cfg (fun w e => singly cfg w e = true) es w) (kind : TokenKind)
    (token : String) :
    w.threads.countP (fun th => th.accepted cfg kind (cfg.hashSecret token)) ≤ 1 := by
  have hinv : ∃ stages, TokenInv cfg kind (cfg.hashSecret token) w stages := by
    apply hrun.invariant (I := fun s => ∃ stages, TokenInv cfg kind (cfg.hashSecret token) s stages)
    · rintro s e s' ⟨stages, hs⟩ hok hstep
      exact hs.step hok hstep
    · exact ⟨[], .nil, ⟨by simp, by simp⟩⟩
  obtain ⟨stages, h⟩ := hinv
  refine (countP_le_of_forall₂ h.follows ?_).trans h.once.single
  intro stage th hat haccepted
  obtain ⟨hpresents, hended⟩ := Bool.and_eq_true_iff.mp haccepted
  obtain ⟨req, prog⟩ := th
  cases prog with
  | ret a =>
      have hstage := hat.follows.2 hpresents hended
      rw [hstage]
      rfl
  | call s k => simp at hended

def presentsToken : AuthEvent → Bool
  | .start (.resetPassword _ _) | .start (.verifyEmail _) | .start (.connect _) => true
  | .start _ => false
  | _ => true

def sampleTokenUses : List AuthEvent :=
  List.flatten [
    [.start (.connect "wst_0"), .start (.connect "wst_0")], calls 0 2, calls 1 2,
    [.start (.resetPassword "prt_0" "password1"), .start (.resetPassword "prt_0" "password2")],
    calls 2 4, calls 3 1, [.start (.verifyEmail "evt_0")], calls 4 3]

theorem one_time_in_turn : ∃ w,
    (fresh sampleTokenDb).RunOf sampleAuthConfig (fun w e => singly sampleAuthConfig w e = true)
      sampleTokenUses w ∧ w.threads.length = 5 ∧
    ∀ kind token, w.threads.countP
      (fun th => th.accepted sampleAuthConfig kind (sampleAuthConfig.hashSecret token)) ≤ 1 := by
  have hexecuted : (execute (step sampleAuthConfig) (singly sampleAuthConfig) (fresh sampleTokenDb)
      sampleTokenUses).any (fun w => w.threads.length == 5) = true := by decide +kernel
  obtain ⟨w, hrun, hw⟩ := exists_guarded_run hexecuted
  exact ⟨w, hrun, by simpa using hw, one_time_once hrun⟩

def sampleTokenRaces : List AuthEvent :=
  List.flatten [
    [.start (.connect "wst_0"), .start (.connect "wst_0")],
    calls 0 1, calls 1 1, calls 0 1, calls 1 1,
    [.start (.resetPassword "prt_0" "password1"), .start (.resetPassword "prt_0" "password2")],
    calls 2 1, calls 3 1, calls 2 3, calls 3 3,
    [.start (.verifyEmail "evt_0"), .start (.verifyEmail "evt_0")],
    calls 4 1, calls 5 1, calls 4 2, calls 5 2]

def sampleToken : TokenKind → String
  | .webSocket => "wst_0"
  | .passwordReset => "prt_0"
  | .emailVerification => "evt_0"

theorem one_time_twice : ¬∃ kind : TokenKind, ∀ (cfg : AuthConfig) (db : CredDb) (token : String)
    (es : List AuthEvent) (w : AuthWorld),
    (fresh db).RunOf cfg (fun _ e => presentsToken e = true) es w →
      w.threads.countP (fun th => th.accepted cfg kind (cfg.hashSecret token)) ≤ 1 := by
  rintro ⟨kind, hclaim⟩
  have hexecuted : (execute (step sampleAuthConfig) (fun _ e => presentsToken e)
      (fresh sampleTokenDb) sampleTokenRaces).any (fun w =>
        [TokenKind.webSocket, .passwordReset, .emailVerification].all fun kind =>
          w.threads.countP (fun th => th.accepted sampleAuthConfig kind
            (sampleAuthConfig.hashSecret (sampleToken kind))) == 2) = true := by decide +kernel
  obtain ⟨w, hrun, hw⟩ := exists_guarded_run hexecuted
  have htwo : w.threads.countP (fun th => th.accepted sampleAuthConfig kind
      (sampleAuthConfig.hashSecret (sampleToken kind))) = 2 := by
    have hkind : kind ∈ [TokenKind.webSocket, .passwordReset, .emailVerification] := by
      cases kind <;> simp
    simpa using List.all_eq_true.mp hw kind hkind
  have hle := hclaim sampleAuthConfig sampleTokenDb (sampleToken kind) sampleTokenRaces w hrun
  omega

end AuthWorld

end NotificationPlatform
