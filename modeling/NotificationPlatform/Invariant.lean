import NotificationPlatform.Effects

/-!
# Invariants of the running system

A state of the system is described by its shared state and, for every thread, its party and its
stage. `Inductive` lists what an invariant of such a description has to survive; the rule
`Inductive.run` carries it along every run.
-/

namespace NotificationPlatform

open Lib

abbrev Members := List (Party × Stage)

def Aligned (cfg : Config) : Members → List Thread → Prop :=
  List.Forall₂ fun m th => m.1 = th.party ∧ Keeps cfg m.1 m.2 th.prog

/-- What an invariant `I` has to survive: every event that the guard `ok` admits, in a state of
which `K` is known already. -/
structure Inductive (cfg : Config) (ok : World → World.Label → Prop)
    (K I : Sys → Members → Prop) : Prop where
  call : ∀ {w : World} {before after : Members} {party : Party} {stage stage' : Stage} {c : Call}
    {o : Outcome} {success : Bool} {s' : Sys},
    Aligned cfg (before ++ (party, stage) :: after) w.threads → ok w (.call party c o) →
    w.sys.succeeds cfg party c o = success →
    Effect cfg w.sys party stage c success stage' s' →
    K w.sys (before ++ (party, stage) :: after) →
    I w.sys (before ++ (party, stage) :: after) → I s' (before ++ (party, stage') :: after)
  request : ∀ {w : World} {ms : Members} {t : String} {req : Request},
    Aligned cfg ms w.threads → ok w (.request t req) → K w.sys ms → I w.sys ms →
    I w.sys (ms ++ [(.request t req, .gates [])])
  tick : ∀ {w : World} {ms : Members}, Aligned cfg ms w.threads → ok w .tick → K w.sys ms →
    I w.sys ms → I w.sys (ms ++ [(.pass w.threads.length, .passing)])
  deliver : ∀ {w : World} {ms : Members} {i : Nat} {m : Message},
    Aligned cfg ms w.threads → ok w (.deliver m) → w.sys.broker.ready[i]? = some m →
    K w.sys ms → I w.sys ms →
    I (w.sys.deliver i ⟨w.sys.broker.nextTag, m⟩)
      (ms ++ [(.consumer ⟨w.sys.broker.nextTag, m⟩, .consumer .received)])
  admin : ∀ {w : World} {ms : Members} {a : AdminAction}, Aligned cfg ms w.threads →
    ok w (.admin a) → K w.sys ms → I w.sys ms → I { w.sys with db := w.sys.db.admin a } ms
  clock : ∀ {w : World} {ms : Members} {now : Nat}, Aligned cfg ms w.threads →
    ok w .clock → w.sys.db.now ≤ now → K w.sys ms → I w.sys ms →
    I { w.sys with db := { w.sys.db with now := now } } ms
  crash : ∀ {w : World} {before after : Members} {party : Party} {stage : Stage},
    Aligned cfg (before ++ (party, stage) :: after) w.threads → ok w (.crash party) →
    K w.sys (before ++ (party, stage) :: after) →
    I w.sys (before ++ (party, stage) :: after) → I w.sys (before ++ (party, .over) :: after)
  requeue : ∀ {w : World} {ms : Members} {d : Delivery}, Aligned cfg ms w.threads →
    ok w .requeue → d ∈ w.sys.broker.unacked → K w.sys ms → I w.sys ms → I (w.sys.requeue d) ms

def Anything : Sys → Members → Prop := fun _ _ => True

def Described (cfg : Config) (I : Sys → Members → Prop) (w : World) : Prop :=
  ∃ ms, Aligned cfg ms w.threads ∧ I w.sys ms

variable {cfg : Config} {ok ok' : World → World.Label → Prop} {K K' I : Sys → Members → Prop}

theorem Inductive.mono (h : Inductive cfg ok K I) (himp : ∀ w l, ok' w l → ok w l) :
    Inductive cfg ok' K I where
  call hal hok := h.call hal (himp _ _ hok)
  request hal hok := h.request hal (himp _ _ hok)
  tick hal hok := h.tick hal (himp _ _ hok)
  deliver hal hok := h.deliver hal (himp _ _ hok)
  admin hal hok := h.admin hal (himp _ _ hok)
  clock hal hok := h.clock hal (himp _ _ hok)
  crash hal hok := h.crash hal (himp _ _ hok)
  requeue hal hok := h.requeue hal (himp _ _ hok)

theorem Inductive.given (h : Inductive cfg ok K I) (himp : ∀ s ms, K' s ms → K s ms) :
    Inductive cfg ok K' I where
  call hal hok hsuccess heffect hK := h.call hal hok hsuccess heffect (himp _ _ hK)
  request hal hok hK := h.request hal hok (himp _ _ hK)
  tick hal hok hK := h.tick hal hok (himp _ _ hK)
  deliver hal hok hm hK := h.deliver hal hok hm (himp _ _ hK)
  admin hal hok hK := h.admin hal hok (himp _ _ hK)
  clock hal hok hle hK := h.clock hal hok hle (himp _ _ hK)
  crash hal hok hK := h.crash hal hok (himp _ _ hK)
  requeue hal hok hd hK := h.requeue hal hok hd (himp _ _ hK)

theorem Inductive.congr {I' : Sys → Members → Prop} (h : Inductive cfg ok K I)
    (hiff : ∀ s ms, I s ms ↔ I' s ms) : Inductive cfg ok K I' := by
  obtain rfl : I = I' := funext₂ fun s ms => propext (hiff s ms)
  exact h

theorem Inductive.and (hK : Inductive cfg ok Anything K) (hI : Inductive cfg ok K I) :
    Inductive cfg ok Anything (fun s ms => K s ms ∧ I s ms) where
  call hal hok hsuccess heffect _ h :=
    ⟨hK.call hal hok hsuccess heffect trivial h.1, hI.call hal hok hsuccess heffect h.1 h.2⟩
  request hal hok _ h := ⟨hK.request hal hok trivial h.1, hI.request hal hok h.1 h.2⟩
  tick hal hok _ h := ⟨hK.tick hal hok trivial h.1, hI.tick hal hok h.1 h.2⟩
  deliver hal hok hm _ h := ⟨hK.deliver hal hok hm trivial h.1, hI.deliver hal hok hm h.1 h.2⟩
  admin hal hok _ h := ⟨hK.admin hal hok trivial h.1, hI.admin hal hok h.1 h.2⟩
  clock hal hok hle _ h := ⟨hK.clock hal hok hle trivial h.1, hI.clock hal hok hle h.1 h.2⟩
  crash hal hok _ h := ⟨hK.crash hal hok trivial h.1, hI.crash hal hok h.1 h.2⟩
  requeue hal hok hd _ h := ⟨hK.requeue hal hok hd trivial h.1, hI.requeue hal hok hd h.1 h.2⟩

/-- An invariant made of a part about the shared state and a part about every member: what an
event has to show of the two. -/
theorem Inductive.each {P : Sys → Prop} {Q : Sys → Party × Stage → Prop}
    (call : ∀ {w : World} {before after : Members} {party : Party} {stage stage' : Stage} {c : Call}
      {o : Outcome} {success : Bool} {s' : Sys}, ok w (.call party c o) →
      w.sys.succeeds cfg party c o = success → Effect cfg w.sys party stage c success stage' s' →
      K w.sys (before ++ (party, stage) :: after) → P w.sys →
      (∀ m ∈ before ++ (party, stage) :: after, Q w.sys m) →
      P s' ∧ Q s' (party, stage') ∧ ∀ m ∈ before ++ after, Q s' m)
    (request : ∀ {w : World} {t : String} {req : Request}, ok w (.request t req) →
      Q w.sys (.request t req, .gates []))
    (tick : ∀ {w : World}, Q w.sys (.pass w.threads.length, .passing))
    (deliver : ∀ {s : Sys} {i : Nat} {m : Message}, s.broker.ready[i]? = some m → P s →
      P (s.deliver i ⟨s.broker.nextTag, m⟩) ∧
        Q (s.deliver i ⟨s.broker.nextTag, m⟩)
          (.consumer ⟨s.broker.nextTag, m⟩, .consumer .received) ∧
        ∀ x, Q s x → Q (s.deliver i ⟨s.broker.nextTag, m⟩) x)
    (admin : ∀ {s : Sys} {a : AdminAction}, P s → P { s with db := s.db.admin a } ∧
      ∀ x, Q s x → Q { s with db := s.db.admin a } x)
    (clock : ∀ {s : Sys} {now : Nat}, s.db.now ≤ now → P s →
      P { s with db := { s.db with now := now } } ∧
      ∀ x, Q s x → Q { s with db := { s.db with now := now } } x)
    (crash : ∀ {s : Sys} {party : Party} {stage : Stage}, Q s (party, stage) → Q s (party, .over))
    (requeue : ∀ {s : Sys} {d : Delivery}, d ∈ s.broker.unacked → P s → P (s.requeue d) ∧
      ∀ x, Q s x → Q (s.requeue d) x) :
    Inductive cfg ok K (fun s ms => P s ∧ ∀ m ∈ ms, Q s m) where
  call := by
    intro w before after party stage stage' c o success s' _ hok hsuccess heffect hK h
    obtain ⟨hP, hself, hothers⟩ := call hok hsuccess heffect hK h.1 h.2
    refine ⟨hP, fun m hm => ?_⟩
    simp only [List.mem_append, List.mem_cons] at hm
    rcases hm with hm | rfl | hm
    · exact hothers m (by simp [hm])
    · exact hself
    · exact hothers m (by simp [hm])
  request := by
    intro w ms t req _ hok _ h
    refine ⟨h.1, fun m hm => ?_⟩
    rcases List.mem_append.mp hm with hm | hm
    · exact h.2 m hm
    · rw [List.mem_singleton.mp hm]
      exact request hok
  tick := by
    intro w ms _ _ _ h
    refine ⟨h.1, fun m hm => ?_⟩
    rcases List.mem_append.mp hm with hm | hm
    · exact h.2 m hm
    · rw [List.mem_singleton.mp hm]
      exact tick
  deliver := by
    intro w ms i m _ _ hm _ h
    obtain ⟨hP, hself, hothers⟩ := deliver hm h.1
    refine ⟨hP, fun x hx => ?_⟩
    rcases List.mem_append.mp hx with hx | hx
    · exact hothers x (h.2 x hx)
    · rw [List.mem_singleton.mp hx]
      exact hself
  admin := by
    intro w ms a _ _ _ h
    exact ⟨(admin h.1).1, fun m hm => (admin h.1).2 m (h.2 m hm)⟩
  clock := by
    intro w ms now _ _ hle _ h
    exact ⟨(clock hle h.1).1, fun m hm => (clock hle h.1).2 m (h.2 m hm)⟩
  crash := by
    intro w before after party stage _ _ _ h
    refine ⟨h.1, fun m hm => ?_⟩
    simp only [List.mem_append, List.mem_cons] at hm
    rcases hm with hm | rfl | hm
    · exact h.2 m (by simp [hm])
    · exact crash (h.2 (party, stage) (by simp))
    · exact h.2 m (by simp [hm])
  requeue := by
    intro w ms d _ _ hd _ h
    exact ⟨(requeue hd h.1).1, fun m hm => (requeue hd h.1).2 m (h.2 m hm)⟩

theorem Inductive.everyMember {Q : Party × Stage → Prop}
    (call : ∀ {w : World} {party : Party} {stage stage' : Stage} {c : Call} {o : Outcome}
      {success : Bool} {s' : Sys}, ok w (.call party c o) →
      Effect cfg w.sys party stage c success stage' s' → Q (party, stage) → Q (party, stage'))
    (request : ∀ {t : String} {req : Request}, Q (.request t req, .gates []))
    (tick : ∀ {id : Nat}, Q (.pass id, .passing))
    (deliver : ∀ {d : Delivery}, Q (.consumer d, .consumer .received))
    (crash : ∀ {party : Party} {stage : Stage}, Q (party, stage) → Q (party, .over)) :
    Inductive cfg ok K (fun _ ms => ∀ m ∈ ms, Q m) := by
  have heach : Inductive cfg ok K (fun _ ms => True ∧ ∀ m ∈ ms, Q m) := by
    apply Inductive.each (P := fun _ => True) (Q := fun _ m => Q m)
    case call =>
      intro w before after party stage stage' c o success s' hok _ heffect _ _ h
      refine ⟨trivial, call hok heffect (h (party, stage) (by simp)), fun m hm => h m ?_⟩
      simp only [List.mem_append, List.mem_cons] at hm ⊢
      tauto
    case request => exact fun _ => request
    case tick => exact fun {_} => tick
    case deliver => exact fun _ _ => ⟨trivial, deliver, fun _ hx => hx⟩
    case admin => exact fun _ => ⟨trivial, fun _ hx => hx⟩
    case clock => exact fun _ _ => ⟨trivial, fun _ hx => hx⟩
    case crash => exact crash
    case requeue => exact fun _ _ => ⟨trivial, fun _ hx => hx⟩
  simpa only [true_and] using heach

private theorem aligned_spawn {ms : Members} {threads : List Thread} {party : Party}
    {stage : Stage} {p : Code Unit} (h : Aligned cfg ms threads)
    (hkeeps : Keeps cfg party stage p) :
    Aligned cfg (ms ++ [(party, stage)]) (threads ++ [⟨party, p⟩]) :=
  List.rel_append h (.cons ⟨rfl, hkeeps⟩ .nil)

/-- A call of a thread, as the protocol sees it: the member whose call it is, the call, and the
stage that the reply leads to. -/
theorem World.call_cases {ms : Members} {w w' : World} {i : Nat} {o : Outcome}
    (hal : Aligned cfg ms w.threads) (hstep : w.step cfg (.step i o) = some w') :
    ∃ before party stage after c k f, ms = before ++ (party, stage) :: after ∧
      w.threads[i]? = some ⟨party, .call c k⟩ ∧ Allowed cfg party stage c f ∧
      w' = ⟨(w.sys.exec cfg party c o).2,
        w.threads.set i ⟨party, k (w.sys.exec cfg party c o).1⟩⟩ ∧
      Aligned cfg (before ++ (party, f (w.sys.exec cfg party c o).1) :: after) w'.threads := by
  simp only [World.step] at hstep
  split at hstep
  · simp at hstep
  · next th hth =>
      obtain ⟨before, m, after, rfl, -, ⟨hparty, hkeeps⟩, hset⟩ := exists_split_of_forall₂ hal hth
      obtain ⟨party, stage⟩ := m
      obtain ⟨party', prog⟩ := th
      obtain rfl : party = party' := hparty
      cases prog with
      | ret _ => simp at hstep
      | call c k =>
          obtain rfl := Option.some.inj hstep
          obtain ⟨f, hallowed, hk⟩ := hkeeps
          exact ⟨before, party, stage, after, c, k, f, rfl, hth, hallowed, rfl,
            hset (party, f (w.sys.exec cfg party c o).1)
              ⟨party, k (w.sys.exec cfg party c o).1⟩ ⟨rfl, hk _⟩⟩

theorem Inductive.step (h : Inductive cfg ok Anything I) {w w' : World} {e : Event}
    (hw : Described cfg I w) (hok : ok w (w.label e)) (hstep : w.step cfg e = some w') :
    Described cfg I w' := by
  obtain ⟨ms, hal, hI⟩ := hw
  cases e with
  | request unixNano t req =>
      have hI' := h.request hal hok trivial hI
      cases hstep
      exact ⟨_, aligned_spawn hal (send_keeps cfg unixNano t req), hI'⟩
  | tick =>
      cases hstep
      exact ⟨_, aligned_spawn hal (routeDueScheduled_keeps cfg w.threads.length),
        h.tick hal hok trivial hI⟩
  | deliver i =>
      simp only [World.step] at hstep
      split at hstep
      · simp at hstep
      · next m hm =>
          obtain ⟨p, hp, rfl⟩ := Option.map_eq_some_iff.mp hstep
          have hok' : ok w (.deliver m) := by simpa [World.label, hm] using hok
          exact ⟨_, aligned_spawn hal (consumer_keeps hp), h.deliver hal hok' hm trivial hI⟩
  | step i o =>
      obtain ⟨before, party, stage, after, c, k, f, rfl, hth, hallowed, rfl, hal'⟩ :=
        World.call_cases hal hstep
      have hok' : ok w (.call party c o) := by simpa [World.label, hth] using hok
      exact ⟨_, hal', h.call hal hok' rfl (hallowed.effect o w.sys) trivial hI⟩
  | admin a =>
      cases hstep
      exact ⟨ms, hal, h.admin hal hok trivial hI⟩
  | clock seconds =>
      cases hstep
      exact ⟨ms, hal, h.clock hal hok (Nat.le_add_right _ _) trivial hI⟩
  | crash i =>
      simp only [World.step] at hstep
      split at hstep
      · simp at hstep
      · next th hth =>
          obtain ⟨before, m, after, rfl, -, ⟨hparty, -⟩, hset⟩ := exists_split_of_forall₂ hal hth
          obtain ⟨party, stage⟩ := m
          obtain ⟨party', prog⟩ := th
          obtain rfl : party = party' := hparty
          have hok' : ok w (.crash party) := by simpa [World.label, hth] using hok
          have hI' := h.crash hal hok' trivial hI
          obtain rfl := Option.some.inj hstep
          exact ⟨_, hset (party, .over) ⟨party, .ret ()⟩ ⟨rfl, rfl⟩, hI'⟩
  | requeue i =>
      simp only [World.step] at hstep
      split at hstep
      · simp at hstep
      · next d hd =>
          obtain rfl := Option.some.inj hstep
          exact ⟨ms, hal, h.requeue hal hok (List.mem_of_getElem? hd) trivial hI⟩

theorem Inductive.run (h : Inductive cfg ok Anything I) {w w' : World} {es : List Event}
    (hrun : w.RunOf cfg ok es w') (hw : Described cfg I w) : Described cfg I w' :=
  Run.invariant hrun (fun _ _ _ hw hok hstep => h.step hw hok hstep) hw

theorem Inductive.reachable (h : Inductive cfg ok Anything I) {w w' : World} {es : List Event}
    (hfresh : w.Fresh) (hrun : w.RunOf cfg ok es w') (hI : I w.sys []) : Described cfg I w' :=
  h.run hrun ⟨[], by rw [hfresh.threads]; exact .nil, hI⟩

def Retired (cfg : Config) : Members → List Thread → Prop :=
  List.Forall₂ fun m th => (m.1 = th.party ∧ Keeps cfg m.1 m.2 th.prog) ∧
    ((∃ a, th.prog = .ret a) → m.2 = .over)

theorem Retired.aligned {ms : Members} {threads : List Thread} (h : Retired cfg ms threads) :
    Aligned cfg ms threads :=
  h.imp fun _ _ hm => hm.1

theorem Inductive.retire (h : Inductive cfg ok Anything I)
    (hcrash : ∀ w party, ok w (.crash party)) {w : World} (hw : Described cfg I w) :
    ∃ ms, Retired cfg ms w.threads ∧ I w.sys ms := by
  obtain ⟨ms, hal, hI⟩ := hw
  -- the members before the ones that are left are retired already
  have hall : ∀ before done threads, Retired cfg before done → w.threads = done ++ threads →
      Aligned cfg ms threads → I w.sys (before ++ ms) →
        ∃ ms', Retired cfg ms' w.threads ∧ I w.sys ms' := by
    clear hal hI
    induction ms with
    | nil =>
        intro before done threads hbefore hthreads hal hI
        cases hal
        rw [hthreads, List.append_nil]
        exact ⟨before, hbefore, by simpa using hI⟩
    | cons m ms ih =>
        intro before done threads hbefore hthreads hal hI
        have hwhole : Aligned cfg (before ++ m :: ms) w.threads := by
          rw [hthreads]
          exact List.rel_append hbefore.aligned hal
        cases hal with
        | @cons _ th _ threads hm hrest =>
            obtain ⟨party, stage⟩ := m
            obtain ⟨party', prog⟩ := th
            have hthreads' : w.threads = done ++ [⟨party', prog⟩] ++ threads := by simp [hthreads]
            cases prog with
            | call c k =>
                have hone : Retired cfg [(party, stage)] [⟨party', .call c k⟩] :=
                  .cons ⟨hm, by simp⟩ .nil
                exact ih _ _ _ (List.rel_append hbefore hone) hthreads' hrest (by simpa using hI)
            | ret a =>
                have hone : Retired cfg [(party, .over)] [⟨party', .ret a⟩] :=
                  .cons ⟨⟨hm.1, rfl⟩, fun _ => rfl⟩ .nil
                have hover := h.crash hwhole (hcrash w party) trivial hI
                exact ih _ _ _ (List.rel_append hbefore hone) hthreads' hrest (by simpa using hover)
  exact hall [] [] w.threads .nil rfl hal hI

end NotificationPlatform
