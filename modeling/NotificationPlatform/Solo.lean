import NotificationPlatform.World

/-!
# Code that runs alone

What a request, a pass or a consumer does when nothing else happens in between, for a plan that
says how each of its calls ends. Such an execution is a run of the system.
-/

namespace NotificationPlatform

open Lib

def handler (cfg : Config) (party : Party) (plan : Call → Outcome) (c : Call) (s : Sys) :
    Reply c × Sys :=
  s.exec cfg party c (plan c)

theorem handler_ok {cfg : Config} {party : Party} {plan : Call → Outcome} {c : Call} {s s' : Sys}
    {r : Result c.stmt} (hplan : (plan c).fail = false)
    (h : s.perform cfg party (plan c) c.stmt = .ok (r, s')) :
    handler cfg party plan c s = (.ok r, s') := by
  simp [handler, Sys.exec, hplan, h]

theorem handler_fail {cfg : Config} {party : Party} {plan : Call → Outcome} {c : Call} {s : Sys}
    (hplan : (plan c).fail = true) :
    handler cfg party plan c s = (.error .driver, s.failed party c.stmt) := by
  simp [handler, Sys.exec, hplan]

def alone {α : Type} (cfg : Config) (party : Party) (plan : Call → Outcome) (p : Go α) (s : Sys) :
    Except Err α × Sys :=
  p.run.eval (handler cfg party plan) s

section

variable {cfg : Config} {party : Party} {plan : Call → Outcome} {s : Sys} {α β : Type}

@[simp] theorem alone_pure (a : α) : alone cfg party plan (pure a) s = (.ok a, s) := rfl

@[simp] theorem alone_throw (e : Err) :
    alone cfg party plan (throw e : Go α) s = (.error e, s) := rfl

theorem alone_call {site : Site} {stmt : Stmt} :
    alone cfg party plan (call site stmt) s =
      s.exec cfg party ⟨site, stmt⟩ (plan ⟨site, stmt⟩) := rfl

theorem alone_call_ok {site : Site} {stmt : Stmt} {r : Result stmt} {s' : Sys}
    (hplan : (plan ⟨site, stmt⟩).fail = false)
    (h : s.perform cfg party (plan ⟨site, stmt⟩) stmt = .ok (r, s')) :
    alone cfg party plan (call site stmt) s = (.ok r, s') :=
  handler_ok hplan h

theorem alone_call_error {site : Site} {stmt : Stmt} {e : Err}
    (hplan : (plan ⟨site, stmt⟩).fail = false)
    (h : s.perform cfg party (plan ⟨site, stmt⟩) stmt = .error e) :
    alone cfg party plan (call site stmt) s = (.error e, s) := by
  rw [alone_call, Sys.exec, hplan, h]
  rfl

theorem alone_call_fail {site : Site} {stmt : Stmt} (hplan : (plan ⟨site, stmt⟩).fail = true) :
    alone cfg party plan (call site stmt) s = (.error .driver, s.failed party stmt) :=
  handler_fail hplan

theorem alone_attempt {site : Site} {stmt : Stmt} :
    alone cfg party plan (attempt site stmt) s =
      (.ok (s.exec cfg party ⟨site, stmt⟩ (plan ⟨site, stmt⟩)).1,
        (s.exec cfg party ⟨site, stmt⟩ (plan ⟨site, stmt⟩)).2) := rfl

theorem alone_bind (p : Go α) (f : α → Go β) :
    alone cfg party plan (p >>= f) s =
      match alone cfg party plan p s with
      | (.ok a, s') => alone cfg party plan (f a) s'
      | (.error e, s') => (.error e, s') := by
  rw [alone, ExceptT.run_bind, Prog.eval_bind, alone]
  cases hr : p.run.eval (handler cfg party plan) s with
  | mk r s' => cases r <;> rfl

theorem alone_bind_ok {p : Go α} {f : α → Go β} {a : α} {s' : Sys}
    (h : alone cfg party plan p s = (.ok a, s')) :
    alone cfg party plan (p >>= f) s = alone cfg party plan (f a) s' := by
  rw [alone_bind, h]

theorem alone_bind_error {p : Go α} {f : α → Go β} {e : Err} {s' : Sys}
    (h : alone cfg party plan p s = (.error e, s')) :
    alone cfg party plan (p >>= f) s = (.error e, s') := by
  rw [alone_bind, h]

end

/-- Code that runs alone as the last thread of a system is a run of the system, when the guard
admits its calls by their replies. -/
theorem World.run_alone {cfg : Config} {ok : World → World.Label → Prop} {party : Party}
    {P : (c : Call) → Reply c → Prop} {Q : Unit → Sys → Prop} {plan : Call → Outcome}
    (hok : ∀ (w : World) c o, P c (w.sys.exec cfg party c o).1 → ok w (.call party c o))
    {p : Code Unit} {s : Sys} (h : p.Ends (handler cfg party plan) P Q s)
    (threads : List Thread) :
    ∃ es s', World.RunOf cfg ok ⟨s, threads ++ [⟨party, p⟩]⟩ es
      ⟨s', threads ++ [⟨party, .ret ()⟩]⟩ ∧ Q () s' := by
  induction p generalizing s with
  | ret a => exact ⟨[], s, .nil _, h⟩
  | call c k ih =>
      obtain ⟨hreply, hrest⟩ := h
      obtain ⟨es, s', hrun, hQ⟩ := ih _ hrest
      have hth : (threads ++ [⟨party, .call c k⟩])[threads.length]? =
          some (⟨party, .call c k⟩ : Thread) := by simp
      refine ⟨.step threads.length (plan c) :: es, s', .cons ?_ ?_ hrun, hQ⟩
      · simpa [World.label, hth] using hok ⟨s, _⟩ c (plan c) hreply
      · simp [World.step, handler]

end NotificationPlatform
