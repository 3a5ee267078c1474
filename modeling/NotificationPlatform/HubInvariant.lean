import NotificationPlatform.Hub

/-!
# What holds of the hub in every interleaving

The two maps of the hub, the state of the send channels and the counters agree after every step,
readers and `Hub.Run` exclude each other, and a send can meet a closed channel only in the loop of
`SyncUnread`.
-/

namespace NotificationPlatform

open Lib

namespace HubWorld

section

variable {w w' : HubWorld} {e : HubEvent} {c : Nat}

theorem tracks_new : HubWorld.new.Tracks where
  index := indexed_empty.symm
  known := by simp [HubWorld.new, Hub.new]
  nodup := List.nodup_nil
  count := rfl
  isOpen := by simp [HubWorld.new, Hub.new]
  unused := by simp [HubWorld.new, closesOf]
  closed := by simp [HubWorld.new]
  awaiting := by simp [HubWorld.new, Awaits]
  admitted := by simp [HubWorld.new, Admits]

theorem Tracks.closesOf_of_registered (h : w.Tracks) (hc : c ∈ w.registered) :
    ∃ n, w.closesOf c = some n := by
  by_cases hin : c ∈ w.hub.clients
  · exact ⟨0, h.isOpen c hin⟩
  · exact ⟨1, h.closed c hc hin⟩

theorem Tracks.connect (h : w.Tracks) (client : WsClient) :
    ({ w with conns := w.conns ++ [newClient client] } : HubWorld).Tracks := by
  generalize hw' : ({ w with conns := w.conns ++ [newClient client] } : HubWorld) = w'
  -- the connections there were keep their places
  have hold : ∀ c n, w.closesOf c = some n →
      w'.closesOf c = some n ∧ w'.clientOf c = w.clientOf c := by
    intro c n hc
    obtain ⟨x, hx, hn⟩ := Option.map_eq_some_iff.mp hc
    have hlt : c < w.conns.length := (List.getElem?_eq_some_iff.mp hx).1
    subst hw'
    simp only [closesOf, clientOf, List.getElem?_append_left hlt, hx]
    exact ⟨congrArg some hn, trivial⟩
  have hnew : ∀ (c : Nat) (x : Connection), w'.conns[c]? = some x → w.conns[c]? = some x ∨
      (w.conns[c]? = none ∧ x = newClient client) := by
    intro c x hx
    subst hw'
    change (w.conns ++ [newClient client])[c]? = some x at hx
    rcases Nat.lt_or_ge c w.conns.length with hlt | hge
    · rw [List.getElem?_append_left hlt] at hx
      exact .inl hx
    · rw [List.getElem?_append_right hge] at hx
      have hmem : x ∈ [newClient client] := List.mem_of_getElem? hx
      exact .inr ⟨List.getElem?_eq_none hge, List.mem_singleton.mp hmem⟩
  have hhub : w'.hub = w.hub := by rw [← hw']
  have hregistered : w'.registered = w.registered := by rw [← hw']
  have hrun : w'.run = w.run := by rw [← hw']
  have hadmits : ∀ c, w'.Admits c ↔ w.Admits c := by
    intro c
    simp only [Admits, hrun]
  constructor
  case index =>
    rw [hhub, h.index]
    apply indexed_congr
    intro c hc
    simp only [tenantOf, (hold c 0 (h.isOpen c hc)).2]
  case known => simpa only [hhub, hregistered] using h.known
  case nodup => simpa only [hregistered] using h.nodup
  case count => simpa only [hhub, hregistered] using h.count
  case isOpen =>
    intro c hc
    rw [hhub] at hc
    exact (hold c 0 (h.isOpen c hc)).1
  case unused =>
    intro c n hc hn
    rw [hregistered] at hc
    obtain ⟨x, hx, rfl⟩ := Option.map_eq_some_iff.mp hn
    rcases hnew c x hx with hx | ⟨-, rfl⟩
    · exact h.unused c _ hc (by simp [closesOf, hx])
    · rfl
  case closed =>
    intro c hc hin
    rw [hregistered] at hc
    rw [hhub] at hin
    exact (hold c 1 (h.closed c hc hin)).1
  case awaiting =>
    intro c hc
    rw [hregistered, hadmits]
    obtain ⟨x, hx, hserve⟩ := hc
    rcases hnew c x hx with hx | ⟨hnone, -⟩
    · exact h.awaiting c ⟨x, hx, hserve⟩
    · have habsent : ∀ n, w.closesOf c ≠ some n := by simp [closesOf, hnone]
      constructor
      · intro hc
        obtain ⟨n, hn⟩ := h.closesOf_of_registered hc
        exact habsent n hn
      · intro hc
        obtain ⟨-, n, hn⟩ := h.admitted c hc
        exact habsent n hn
  case admitted =>
    intro c hc
    rw [hregistered]
    rw [hadmits] at hc
    obtain ⟨hnot, n, hn⟩ := h.admitted c hc
    exact ⟨hnot, n, (hold c n hn).1⟩

theorem quiet_registered (hc : w.Awaits c) : w.Quiet (w.setServe c .registered) := by
  apply quiet_setServe
  intro x hx
  obtain ⟨y, hy, hserve⟩ := hc
  obtain rfl : y = x := Option.some.inj (hy.symm.trans hx)
  exact onward_of_maySend (by rw [hserve]; rfl) (by simp)

theorem Tracks.receiveRegister (h : w.Tracks) (hc : w.Awaits c) :
    ({ w.setServe c .registered with run := .received (.register c) } : HubWorld).Tracks := by
  have hquiet : w.Quiet (w.setServe c .registered) := quiet_registered hc
  have hset : (w.setServe c .registered).Tracks := h.quiet hquiet
  have hleft : ¬ (w.setServe c .registered).Awaits c := by
    rintro ⟨x, hx, hserve⟩
    change (w.conns.modify c _)[c]? = some x at hx
    rw [List.getElem?_modify] at hx
    obtain ⟨y, -, rfl⟩ := Option.map_eq_some_iff.mp hx
    simp at hserve
  exact
    { index := hset.index
      known := hset.known
      nodup := hset.nodup
      count := hset.count
      isOpen := hset.isOpen
      unused := hset.unused
      closed := hset.closed
      awaiting := by
        intro c' hc'
        refine ⟨(hset.awaiting c' hc').1, ?_⟩
        intro hadmits
        have heq : c = c' := by simpa [Admits] using hadmits
        subst heq
        exact hleft hc'
      admitted := by
        intro c' hadmits
        have heq : c = c' := by simpa [Admits] using hadmits
        subst heq
        refine ⟨(h.awaiting c hc).1, ?_⟩
        obtain ⟨x, hx, -⟩ := hc
        refine ⟨x.closes, ?_⟩
        change (w.setServe c .registered).closesOf c = some x.closes
        rw [hquiet.closesOf]
        simp [closesOf, hx] }

theorem Tracks.runRegister {x : Connection} (h : w.Tracks) (hrun : w.run = .locked (.register c))
    (hx : w.conns[c]? = some x) :
    ({ w with
      hub := w.hub.runRegister c x.client.tenantID
      run := .processed
      registered := w.registered ++ [c] } : HubWorld).Tracks := by
  obtain ⟨hnew, n, hn⟩ := h.admitted c (.inr hrun)
  have hzero : w.closesOf c = some 0 := by rw [hn, h.unused c n hnew hn]
  have hout : c ∉ w.hub.clients := fun hc => hnew (h.known c hc)
  have htenant : w.tenantOf c = x.client.tenantID := by simp [tenantOf, clientOf, hx]
  constructor
  case index =>
    change (w.hub.runRegister c x.client.tenantID).byTenant =
        indexed w.tenantOf (insert c w.hub.clients)
    rw [indexed_insert, htenant, ← h.index]
    rfl
  case known =>
    intro c' hc'
    rcases Finset.mem_insert.mp hc' with rfl | hc'
    · exact List.mem_append_right _ (List.mem_singleton.mpr rfl)
    · exact List.mem_append_left _ (h.known c' hc')
  case nodup =>
    apply List.Nodup.append h.nodup (List.nodup_singleton c)
    intro c' hc' hsame
    rw [List.mem_singleton.mp hsame] at hc'
    exact hnew hc'
  case count =>
    have hcard : (insert c w.hub.clients).card = w.hub.clients.card + 1 :=
      Finset.card_insert_of_notMem hout
    have hcount := h.count
    simp only [Hub.runRegister, List.length_append, List.length_singleton, hcard]
    omega
  case isOpen =>
    intro c' hc'
    rcases Finset.mem_insert.mp hc' with rfl | hc'
    · exact hzero
    · exact h.isOpen c' hc'
  case unused =>
    intro c' n hc' hn'
    exact h.unused c' n (fun hold => hc' (List.mem_append_left _ hold)) hn'
  case closed =>
    intro c' hc' hin
    have hne : c' ≠ c := by
      rintro rfl
      exact hin (Finset.mem_insert_self _ _)
    have hold : c' ∈ w.registered := by simpa [hne] using hc'
    exact h.closed c' hold fun hc' => hin (Finset.mem_insert_of_mem hc')
  case awaiting =>
    intro c' hawaits
    obtain ⟨hold, hadmits⟩ := h.awaiting c' hawaits
    have hne : c' ≠ c := by
      rintro rfl
      exact hadmits (.inr hrun)
    refine ⟨by simp [hold, hne], ?_⟩
    simp [Admits]
  case admitted =>
    intro c' hadmits
    simp [Admits] at hadmits

theorem Tracks.runUnregister {x : Connection} (h : w.Tracks) (hx : w.conns[c]? = some x)
    (hin : c ∈ w.hub.clients) :
    ({ w.withConn c Connection.close with
      hub := w.hub.runUnregister c x.client.tenantID
      run := .processed } : HubWorld).Tracks := by
  have hzero : x.closes = 0 := by simpa [closesOf, hx] using h.isOpen c hin
  have hclient : (w.withConn c Connection.close).clientOf = w.clientOf :=
    clientOf_withConn fun _ _ => rfl
  have htenant : w.tenantOf c = x.client.tenantID := by simp [tenantOf, clientOf, hx]
  have hother : ∀ c', c' ≠ c →
      (w.withConn c Connection.close).closesOf c' = w.closesOf c' := by
    intro c' hne
    simp [closesOf, withConn, hne.symm]
  have hself : (w.withConn c Connection.close).closesOf c = some 1 := by
    simp [closesOf, withConn, hx, hzero, Connection.close]
  constructor
  case index =>
    have htenants : (w.withConn c Connection.close).tenantOf = w.tenantOf := by
      funext c'
      simp only [tenantOf, hclient]
    change (w.hub.runUnregister c x.client.tenantID).byTenant =
      indexed (w.withConn c Connection.close).tenantOf (w.hub.clients.erase c)
    rw [htenants, indexed_erase, htenant, ← h.index]
    funext t
    cases hs : w.hub.byTenant t <;> simp only [Hub.runUnregister, hs]
  case known =>
    intro c' hc'
    exact h.known c' (Finset.mem_of_mem_erase hc')
  case nodup => exact h.nodup
  case count =>
    have hcard : (w.hub.clients.erase c).card + 1 = w.hub.clients.card :=
      Finset.card_erase_add_one hin
    have hcount := h.count
    change w.registered.length = (w.hub.clients.erase c).card + (w.hub.wsDisconnects + 1)
    omega
  case isOpen =>
    intro c' hc'
    obtain ⟨hne, hc'⟩ := Finset.mem_erase.mp hc'
    exact (hother c' hne).trans (h.isOpen c' hc')
  case unused =>
    intro c' n hc' hn
    have hne : c' ≠ c := by
      rintro rfl
      exact hc' (h.known c' hin)
    exact h.unused c' n hc' ((hother c' hne).symm.trans hn)
  case closed =>
    intro c' hc' hout
    by_cases hne : c' = c
    · subst hne
      exact hself
    · refine (hother c' hne).trans (h.closed c' hc' ?_)
      intro hstill
      exact hout (Finset.mem_erase.mpr ⟨hne, hstill⟩)
  case awaiting =>
    intro c' hawaits
    have hold : w.Awaits c' :=
      awaits_withConn (f := Connection.close) (fun _ _ hserve => hserve) hawaits
    exact ⟨(h.awaiting c' hold).1, by simp [Admits]⟩
  case admitted =>
    intro c' hadmits
    simp [Admits] at hadmits

theorem Tracks.process {m : HubMessage} (h : w.Tracks) (hrun : w.run = .locked m) :
    (w.process m).Tracks ∧ (w.process m).panics = w.panics := by
  cases m with
  | register c =>
      unfold HubWorld.process
      dsimp only
      split
      · exact ⟨h, rfl⟩
      · next x hx => exact ⟨h.runRegister hrun hx, rfl⟩
  | unregister c =>
      unfold HubWorld.process
      dsimp only
      split
      · exact ⟨h, rfl⟩
      · next x hx =>
          split
          · next hin =>
              have hzero : x.closes = 0 := by simpa [closesOf, hx] using h.isOpen c hin
              rw [if_neg (by omega)]
              exact ⟨h.runUnregister hx hin, rfl⟩
          · refine ⟨h.quiet (quiet_of_eq rfl rfl rfl rfl rfl ?_), rfl⟩
            intro c' hadmits
            simp [Admits] at hadmits

theorem Tracks.step (h : w.Tracks) (hstep : w.step e = some w') : w'.Tracks := by
  rcases (step_moves hstep).cases with ⟨client, rfl⟩ | ⟨c, hc, rfl⟩ | ⟨m, -, hm, rfl⟩ | hquiet
  · exact h.connect client
  · exact h.receiveRegister hc
  · exact (h.process hm).1
  · exact h.quiet hquiet

/-- No reader is inside while `Hub.Run` holds the lock, and the clients a reader has still to
visit are those it found. -/
structure Excludes (w : HubWorld) : Prop where
  exclusive : w.run.holdsLock = true → ∀ caller ∈ w.callers, caller.holdsLock = false
  range : ∀ op todo, Caller.holding op todo ∈ w.callers → todo ⊆ op.range w.hub

theorem range_congr {h h' : Hub} (heq : h'.byTenant = h.byTenant) (op : HubCall) :
    op.range h' = op.range h := by
  cases op <;> simp only [HubCall.range, heq]

theorem Excludes.setCaller {i : Nat} {caller : Caller} (h : w.Excludes) (hrun : w'.run = w.run)
    (hbyTenant : w'.hub.byTenant = w.hub.byTenant)
    (hcallers : w'.callers = w.callers.set i caller)
    (hlock : caller.holdsLock = true → w.run.holdsLock = false)
    (hrange : ∀ op todo, caller = .holding op todo → todo ⊆ op.range w.hub) : w'.Excludes where
  exclusive := by
    intro hheld other hmem
    rw [hrun] at hheld
    rw [hcallers] at hmem
    rcases List.mem_or_eq_of_mem_set hmem with hmem | rfl
    · exact h.exclusive hheld other hmem
    · cases hother : other.holdsLock with
      | false => rfl
      | true => simp [hlock hother] at hheld
  range := by
    intro op todo hmem
    rw [range_congr hbyTenant]
    rw [hcallers] at hmem
    rcases List.mem_or_eq_of_mem_set hmem with hmem | heq
    · exact h.range op todo hmem
    · exact hrange op todo heq.symm

theorem Excludes.unlocked {i : Nat} {op : HubCall} {todo : Finset Nat} (h : w.Excludes)
    (hcaller : w.callers[i]? = some (.holding op todo)) : w.run.holdsLock = false := by
  cases hheld : w.run.holdsLock with
  | false => rfl
  | true =>
      have hnot := h.exclusive hheld _ (List.mem_of_getElem? hcaller)
      simp [Caller.holdsLock] at hnot

theorem visit_callers {i : Nat} {op : HubCall} {todo : Finset Nat} {x : Connection} :
    (w.visit i c op todo x).run = w.run ∧
      ((w.visit i c op todo x).callers = w.callers.set i (.holding op (todo.erase c)) ∨
        (w.visit i c op todo x).callers = w.callers.set i (.returned none)) := by
  unfold visit
  split
  · exact ⟨rfl, .inl rfl⟩
  · split
    · exact ⟨rfl, .inr rfl⟩
    · exact ⟨rfl, .inl rfl⟩

theorem syncRow_frame {x : Connection} {rows : List (Option WsDelivery)} :
    (w.syncRow c x rows).callers = w.callers ∧ (w.syncRow c x rows).run = w.run ∧
      (w.syncRow c x rows).enqueued = w.enqueued := by
  unfold syncRow
  split
  · exact ⟨rfl, rfl, rfl⟩
  · exact ⟨rfl, rfl, rfl⟩
  · split <;> exact ⟨rfl, rfl, rfl⟩

theorem process_frame {m : HubMessage} :
    (w.process m).callers = w.callers ∧ (w.process m).enqueued = w.enqueued ∧
      (w.process m).clientOf = w.clientOf := by
  cases m with
  | register c =>
      unfold process
      dsimp only
      split <;> exact ⟨rfl, rfl, rfl⟩
  | unregister c =>
      unfold process
      dsimp only
      split
      · exact ⟨rfl, rfl, rfl⟩
      · split
        · split
          · exact ⟨rfl, rfl, rfl⟩
          · exact ⟨rfl, rfl, clientOf_withConn (f := Connection.close) fun _ _ => rfl⟩
        · exact ⟨rfl, rfl, rfl⟩

theorem Excludes.frame (h : w.Excludes) (hcallers : w'.callers = w.callers)
    (hbyTenant : w'.hub.byTenant = w.hub.byTenant)
    (hlock : w'.run.holdsLock = true →
      w.run.holdsLock = true ∨ w.callers.any Caller.holdsLock = false) : w'.Excludes where
  exclusive := by
    intro hheld caller hmem
    rw [hcallers] at hmem
    rcases hlock hheld with hheld | hnone
    · exact h.exclusive hheld caller hmem
    · simpa using List.any_eq_false.mp hnone caller hmem
  range := by
    intro op todo hmem
    rw [range_congr hbyTenant]
    rw [hcallers] at hmem
    exact h.range op todo hmem

theorem Excludes.step (h : w.Excludes) (hstep : w.step e = some w') : w'.Excludes := by
  cases step_moves hstep with
  | connect client => exact h.frame rfl rfl .inl
  | receiveRegister hc => exact h.frame rfl rfl (by simp [RunState.holdsLock])
  | @process m hm =>
      -- the lock is held, so there is no reader inside
      have hnone : ∀ caller ∈ w.callers, caller.holdsLock = false :=
        h.exclusive (by simp [hm, RunState.holdsLock])
      obtain ⟨hcallers, -, -⟩ := process_frame (w := w) (m := m)
      constructor
      · intro _ caller hmem
        rw [hcallers] at hmem
        exact hnone caller hmem
      · intro op todo hmem
        rw [hcallers] at hmem
        simpa [Caller.holdsLock] using hnone _ hmem
  | syncRow hx hserve =>
      obtain ⟨hcallers, hrun, -⟩ := syncRow_frame
      exact h.frame hcallers (quiet_syncRow hx hserve).byTenant (by rw [hrun]; exact .inl)
  | call op =>
      constructor
      · intro hheld caller hmem
        rcases List.mem_append.mp hmem with hmem | hmem
        · exact h.exclusive hheld caller hmem
        · rw [List.mem_singleton.mp hmem]
          rfl
      · intro op' todo hmem
        rcases List.mem_append.mp hmem with hmem | hmem
        · exact h.range op' todo hmem
        · simp at hmem
  | rlock op hfree =>
      refine h.setCaller rfl rfl rfl (fun _ => hfree) ?_
      intro op' todo heq
      obtain ⟨rfl, rfl⟩ := Caller.holding.inj heq
      exact Finset.Subset.refl _
  | @visit i c op todo x hcaller hx hc =>
      have hbyTenant : (w.visit i c op todo x).hub.byTenant = w.hub.byTenant :=
        (quiet_visit hx).byTenant
      obtain ⟨hrun, hcallers | hcallers⟩ := visit_callers
      · apply h.setCaller hrun hbyTenant hcallers (fun _ => h.unlocked hcaller)
        intro op' todo' heq
        obtain ⟨rfl, rfl⟩ := Caller.holding.inj heq
        exact (Finset.erase_subset _ _).trans (h.range _ _ (List.mem_of_getElem? hcaller))
      · exact h.setCaller hrun hbyTenant hcallers (by simp [Caller.holdsLock]) (by simp)
  | runlock result => exact h.setCaller rfl rfl rfl (by simp [Caller.holdsLock]) (by simp)
  | other hquiet hcallers _ _ hlock => exact h.frame hcallers hquiet.byTenant hlock

def Addressed (w : HubWorld) : Prop :=
  ∀ op c, (op, c) ∈ w.enqueued → ∃ client, w.clientOf c = some client ∧ op.isFor client

theorem Tracks.mem_range {op : HubCall} {x : Connection} {d : WsDelivery} (h : w.Tracks)
    (hx : w.conns[c]? = some x) (hc : c ∈ op.range w.hub)
    (hd : op.deliveryFor x.client = some d) : c ∈ w.hub.clients ∧ op.isFor x.client := by
  have htenant : w.tenantOf c = x.client.tenantID := by simp [tenantOf, clientOf, hx]
  cases op with
  | broadcastToTenant t d' =>
      rw [HubCall.range, h.index, mem_indexed_getD, htenant] at hc
      exact hc
  | broadcastToUser t user d' =>
      rw [HubCall.range, h.index, mem_indexed_getD, htenant] at hc
      have huser : x.client.externalUserID = user := by
        by_contra hne
        simp [HubCall.deliveryFor, hne] at hd
      exact ⟨hc.1, hc.2, huser⟩
  | activeConnections => simp [HubCall.range] at hc
  | activeByTenant t => simp [HubCall.range] at hc

theorem closed_of_sendDelivery_none {x : Connection} {d : WsDelivery}
    (h : x.sendDelivery d = none) : 0 < x.closes := by
  unfold Connection.sendDelivery at h
  by_contra hopen
  rw [if_neg hopen] at h
  split at h <;> simp at h

theorem visit_cases (w : HubWorld) (i c : Nat) (op : HubCall) (todo : Finset Nat)
    (x : Connection) :
    ((w.visit i c op todo x).enqueued = w.enqueued ∧ (w.visit i c op todo x).panics = w.panics) ∨
      ∃ d, op.deliveryFor x.client = some d ∧
        ((0 < x.closes ∧ (w.visit i c op todo x).enqueued = w.enqueued) ∨
          ((w.visit i c op todo x).enqueued = w.enqueued ++ [(op, c)] ∧
            (w.visit i c op todo x).panics = w.panics)) := by
  unfold visit
  split
  · exact .inl ⟨rfl, rfl⟩
  · next d hd =>
      split
      · next hnone => exact .inr ⟨d, hd, .inl ⟨closed_of_sendDelivery_none hnone, rfl⟩⟩
      · dsimp only
        split
        · exact .inr ⟨d, hd, .inr ⟨rfl, rfl⟩⟩
        · exact .inl ⟨rfl, rfl⟩

theorem clientOf_step {client : WsClient} (hstep : w.step e = some w')
    (hc : w.clientOf c = some client) : w'.clientOf c = some client := by
  rcases (step_moves hstep).cases with ⟨new, rfl⟩ | ⟨c', -, rfl⟩ | ⟨m, -, -, rfl⟩ | hquiet
  · obtain ⟨x, hx, rfl⟩ := Option.map_eq_some_iff.mp hc
    have hlt : c < w.conns.length := (List.getElem?_eq_some_iff.mp hx).1
    simp only [clientOf, List.getElem?_append_left hlt, hx, Option.map_some]
  · have hset : (w.setServe c' .registered).clientOf = w.clientOf :=
      clientOf_withConn fun _ _ => rfl
    exact (congrFun hset c).trans hc
  · rw [process_frame.2.2]
    exact hc
  · rw [hquiet.clientOf]
    exact hc

theorem Addressed.step (h : w.Addressed) (htracks : w.Tracks) (hexcludes : w.Excludes)
    (hstep : w.step e = some w') : w'.Addressed := by
  have hsame : w'.enqueued = w.enqueued → w'.Addressed := by
    intro heq op c hmem
    rw [heq] at hmem
    obtain ⟨client, hclient, hfor⟩ := h op c hmem
    exact ⟨client, clientOf_step hstep hclient, hfor⟩
  cases step_moves hstep with
  | connect client => exact hsame rfl
  | receiveRegister hc => exact hsame rfl
  | process hm => exact hsame process_frame.2.1
  | syncRow hx hserve => exact hsame syncRow_frame.2.2
  | call op => exact hsame rfl
  | rlock op hfree => exact hsame rfl
  | @visit i c op todo x hcaller hx hc =>
      rcases w.visit_cases i c op todo x with ⟨heq, -⟩ | ⟨d, hd, ⟨-, heq⟩ | ⟨heq, -⟩⟩
      · exact hsame heq
      · exact hsame heq
      · intro op' c' hmem
        rw [heq] at hmem
        rcases List.mem_append.mp hmem with hmem | hmem
        · obtain ⟨client, hclient, hfor⟩ := h op' c' hmem
          exact ⟨client, clientOf_step hstep hclient, hfor⟩
        · obtain ⟨rfl, rfl⟩ := Prod.mk.inj (List.mem_singleton.mp hmem)
          have hrange := hexcludes.range _ _ (List.mem_of_getElem? hcaller) hc
          have hclient : w.clientOf c' = some x.client := by simp [clientOf, hx]
          exact ⟨x.client, clientOf_step hstep hclient, (htracks.mem_range hx hrange hd).2⟩
  | runlock result => exact hsame rfl
  | other hquiet _ henqueued _ _ => exact hsame henqueued

/-- Everything that holds of the hub after every step. -/
structure Sound (w : HubWorld) : Prop where
  tracks : w.Tracks
  excludes : w.Excludes
  addressed : w.Addressed

theorem sound_new : HubWorld.new.Sound where
  tracks := tracks_new
  excludes := ⟨by simp [HubWorld.new], by simp [HubWorld.new]⟩
  addressed := by simp [Addressed, HubWorld.new]

theorem Sound.step (h : w.Sound) (hstep : w.step e = some w') : w'.Sound :=
  ⟨h.tracks.step hstep, h.excludes.step hstep, h.addressed.step h.tracks h.excludes hstep⟩

theorem Sound.run {ok : HubWorld → HubEvent → Prop} {es : List HubEvent} (h : w.Sound)
    (hrun : w.RunOf ok es w') : w'.Sound :=
  hrun.invariant (fun _ _ _ hs _ hstep => hs.step hstep) h

end

/-- In every interleaving of `Hub.Run`, the goroutines of the connections, any further
`Unregister` messages and the readers: `clients` is the disjoint union of the sets of `byTenant`,
each of them nonempty and keyed by its clients' own tenant; a client that was registered has an
open channel while it is connected and a channel closed exactly once afterwards; the registrations
are the connected clients and the disconnects; and broadcasts reach only the clients they are
for. -/
theorem hub_consistent {es : List HubEvent} {w : HubWorld}
    (hrun : HubWorld.new.RunOf (fun _ _ => True) es w) :
    (∀ c, c ∈ w.hub.clients ↔ ∃ t s, w.hub.byTenant t = some s ∧ c ∈ s) ∧
      (∀ t t' s s', t ≠ t' → w.hub.byTenant t = some s → w.hub.byTenant t' = some s' →
        Disjoint s s') ∧
      (∀ t s, w.hub.byTenant t = some s → s.Nonempty ∧
        ∀ c ∈ s, ∃ x, w.conns[c]? = some x ∧ x.client.tenantID = t) ∧
      (∀ c ∈ w.registered, ∃ x, w.conns[c]? = some x ∧
        (c ∈ w.hub.clients → x.closes = 0) ∧ (c ∉ w.hub.clients → x.closes = 1)) ∧
      (w.registered.Nodup ∧ (∀ c ∈ w.hub.clients, c ∈ w.registered) ∧
        w.registered.length = w.hub.clients.card + w.hub.wsDisconnects) ∧
      ∀ op c, (op, c) ∈ w.enqueued → ∃ x, w.conns[c]? = some x ∧ op.isFor x.client := by
  obtain ⟨htracks, -, haddressed⟩ := sound_new.run hrun
  have hconn : ∀ c ∈ w.registered, ∃ x, w.conns[c]? = some x ∧ w.closesOf c = some x.closes := by
    intro c hc
    obtain ⟨n, hn⟩ := htracks.closesOf_of_registered hc
    obtain ⟨x, hx, rfl⟩ := Option.map_eq_some_iff.mp hn
    exact ⟨x, hx, hn⟩
  refine ⟨?_, ?_, ?_, ?_, ⟨htracks.nodup, htracks.known, htracks.count⟩, ?_⟩
  · intro c
    rw [htracks.index]
    exact mem_iff_indexed
  · intro t t' s s' hne hs hs'
    rw [htracks.index] at hs hs'
    exact indexed_disjoint hne hs hs'
  · intro t s hs
    rw [htracks.index] at hs
    refine ⟨(indexed_eq_some hs).2, ?_⟩
    intro c hc
    obtain ⟨hin, htenant⟩ := (mem_of_indexed hs).mp hc
    obtain ⟨x, hx, -⟩ := hconn c (htracks.known c hin)
    have hown : w.tenantOf c = x.client.tenantID := by simp [tenantOf, clientOf, hx]
    exact ⟨x, hx, hown.symm.trans htenant⟩
  · intro c hc
    obtain ⟨x, hx, hcloses⟩ := hconn c hc
    refine ⟨x, hx, ?_, ?_⟩
    · intro hin
      exact Option.some.inj (hcloses.symm.trans (htracks.isOpen c hin))
    · intro hout
      exact Option.some.inj (hcloses.symm.trans (htracks.closed c hc hout))
  · intro op c hmem
    obtain ⟨client, hclient, hfor⟩ := haddressed op c hmem
    obtain ⟨x, hx, rfl⟩ := Option.map_eq_some_iff.mp hclient
    exact ⟨x, hx, hfor⟩

theorem exists_run {es : List HubEvent} {p : HubWorld → Bool}
    (h : (execute HubWorld.step (fun _ _ => true) HubWorld.new es).any p = true) :
    ∃ w, HubWorld.new.RunOf (fun _ _ => True) es w ∧ p w = true :=
  Run.exists_of_execute (fun _ _ _ => trivial) h

/-- Two clients of one tenant connect; the first is told of a notification and leaves, and is
unregistered once more. -/
def sampleHubRun : List HubEvent :=
  [.connect ⟨"t", "u", "", "x"⟩, .connect ⟨"t", "v", "", "y"⟩,
    .receiveRegister 0, .lock, .process, .unlock, .receiveRegister 1, .lock, .process, .unlock,
    .call (.broadcastToUser "t" "x" ⟨"n", "Notification", "", .empty, "websocket"⟩),
    .rlock 0, .visit 0 0, .visit 0 1, .runlock 0,
    .startWritePump 0, .startReadPump 0, .writeMessage 0 false, .query 0 none,
    .readError 0, .receiveUnregister 0, .lock, .process, .unlock,
    .sendUnregister 0, .lock, .process, .unlock]

theorem hub_consistent_after_leaving :
    ∃ w, HubWorld.new.RunOf (fun _ _ => True) sampleHubRun w ∧ w.hub.wsDisconnects = 1 ∧
      w.registered.length = w.hub.clients.card + w.hub.wsDisconnects := by
  have hexecuted : (execute HubWorld.step (fun _ _ => true) HubWorld.new sampleHubRun).any
      (fun w => w.hub.wsDisconnects == 1) = true := by decide +kernel
  obtain ⟨w, hrun, hw⟩ := exists_run hexecuted
  exact ⟨w, hrun, by simpa using hw, (hub_consistent hrun).2.2.2.2.1.2.2⟩

/-- `Hub.Run` closes the channel of a connected client only when the client's `ServeWS` has no
delivery left to send. -/
def ClosesAfterSync (w : HubWorld) : HubEvent → Prop
  | .process => ∀ c, w.run = .locked (.unregister c) → c ∈ w.hub.clients → ¬ w.MaySend c
  | _ => True

/-- Nobody panicked, and nobody will send to a closed channel from `ServeWS`. -/
structure Calm (w : HubWorld) : Prop where
  sound : w.Sound
  spent : ∀ c n, w.closesOf c = some n → 0 < n → ¬ w.MaySend c
  panics : w.panics = []

section

variable {w w' : HubWorld} {e : HubEvent} {c : Nat}

theorem Calm.spent_of_quiet (h : w.Calm) (hquiet : w.Quiet w') (c n : Nat)
    (hn : w'.closesOf c = some n) (hpos : 0 < n) : ¬ w'.MaySend c := by
  intro hmay
  rw [hquiet.closesOf] at hn
  exact h.spent c n hn hpos (hquiet.maySend c hmay)

theorem Calm.spent_connect (h : w.Calm) (client : WsClient) (c n : Nat)
    (hn : ({ w with conns := w.conns ++ [newClient client] } : HubWorld).closesOf c = some n)
    (hpos : 0 < n) :
    ¬ ({ w with conns := w.conns ++ [newClient client] } : HubWorld).MaySend c := by
  rintro ⟨x, hx, hserve⟩
  change (w.conns ++ [newClient client])[c]? = some x at hx
  have hcloses : x.closes = n := by simpa [closesOf, hx] using hn
  rcases Nat.lt_or_ge c w.conns.length with hlt | hge
  · rw [List.getElem?_append_left hlt] at hx
    exact h.spent c n (by simp [closesOf, hx, hcloses]) hpos ⟨x, hx, hserve⟩
  · rw [List.getElem?_append_right hge] at hx
    have hmem : x ∈ [newClient client] := List.mem_of_getElem? hx
    rw [List.mem_singleton.mp hmem] at hcloses
    simp [newClient] at hcloses
    omega

theorem process_conns {m : HubMessage} :
    (w.process m).conns = w.conns ∨ ∃ c, m = .unregister c ∧ c ∈ w.hub.clients ∧
      (w.process m).conns = (w.withConn c Connection.close).conns := by
  cases m with
  | register c =>
      unfold process
      dsimp only
      split <;> exact .inl rfl
  | unregister c =>
      unfold process
      dsimp only
      split
      · exact .inl rfl
      · split
        · next hin =>
            split
            · exact .inl rfl
            · exact .inr ⟨c, rfl, hin, rfl⟩
        · exact .inl rfl

theorem Calm.spent_process {m : HubMessage} (h : w.Calm) (hm : w.run = .locked m)
    (hok : w.ClosesAfterSync .process) (c n : Nat) (hn : (w.process m).closesOf c = some n)
    (hpos : 0 < n) : ¬ (w.process m).MaySend c := by
  rcases process_conns (w := w) (m := m) with hconns | ⟨c', rfl, hin, hconns⟩
  · simp only [closesOf, MaySend, hconns] at hn ⊢
    exact h.spent c n hn hpos
  · simp only [closesOf, MaySend, hconns] at hn ⊢
    intro hmay
    have hbefore : w.MaySend c :=
      maySend_withConn (f := Connection.close) (fun _ _ hserve => hserve) hmay
    by_cases hcc : c = c'
    · subst hcc
      exact hok c hm hin hbefore
    · have hsame : w.closesOf c = some n := by
        rw [← hn]
        simp [closesOf, withConn, Ne.symm hcc]
      exact h.spent c n hsame hpos hbefore

theorem syncRow_panics (w : HubWorld) (c : Nat) (x : Connection)
    (rows : List (Option WsDelivery)) :
    (w.syncRow c x rows).panics = w.panics ∨
      (0 < x.closes ∧ (ServeState.syncing rows).maySend = true) := by
  unfold syncRow
  split
  · exact .inl rfl
  · exact .inl rfl
  · next d rows =>
      split
      · next hnone =>
          refine .inr ⟨?_, by simp [ServeState.maySend]⟩
          exact closed_of_sendDelivery_none hnone
      · exact .inl rfl

theorem Calm.step (h : w.Calm) (hok : w.ClosesAfterSync e) (hstep : w.step e = some w') :
    w'.Calm := by
  have hsound : w'.Sound := h.sound.step hstep
  cases step_moves hstep with
  | connect client => exact ⟨hsound, h.spent_connect client, h.panics⟩
  | @receiveRegister c hc =>
      have hquiet : w.Quiet (w.setServe c .registered) := quiet_registered hc
      exact ⟨hsound, fun c' n => h.spent_of_quiet hquiet c' n, h.panics⟩
  | process hm =>
      exact ⟨hsound, h.spent_process hm hok, (h.sound.tracks.process hm).2.trans h.panics⟩
  | @syncRow c x rows hx hserve =>
      refine ⟨hsound, h.spent_of_quiet (quiet_syncRow hx hserve), ?_⟩
      rcases syncRow_panics w c x rows with hpanics | ⟨hclosed, hmay⟩
      · exact hpanics.trans h.panics
      · have hcloses : w.closesOf c = some x.closes := by simp [closesOf, hx]
        exact absurd ⟨x, hx, by rw [hserve]; exact hmay⟩ (h.spent c _ hcloses hclosed)
  | call op => exact ⟨hsound, h.spent, h.panics⟩
  | rlock op hfree => exact ⟨hsound, h.spent, h.panics⟩
  | @visit i c op todo x hcaller hx hc =>
      refine ⟨hsound, h.spent_of_quiet (quiet_visit hx), ?_⟩
      rcases w.visit_cases i c op todo x with ⟨-, hpanics⟩ | ⟨d, hd, ⟨hclosed, -⟩ | ⟨-, hpanics⟩⟩
      · exact hpanics.trans h.panics
      · -- a reader visits connected clients only, and their channels are open
        have hrange := h.sound.excludes.range _ _ (List.mem_of_getElem? hcaller) hc
        have hin := (h.sound.tracks.mem_range hx hrange hd).1
        have hzero : x.closes = 0 := by simpa [closesOf, hx] using h.sound.tracks.isOpen c hin
        omega
      · exact hpanics.trans h.panics
  | runlock result => exact ⟨hsound, h.spent, h.panics⟩
  | other hquiet _ _ hpanics _ =>
      exact ⟨hsound, h.spent_of_quiet hquiet, hpanics.trans h.panics⟩

theorem calm_new : HubWorld.new.Calm where
  sound := sound_new
  spent := by simp [HubWorld.new, closesOf]
  panics := rfl

end

/-- No goroutine sends on a closed channel in any interleaving in which the hub unregisters a
connected client only after its `SyncUnread` loop. -/
theorem no_send_after_close {es : List HubEvent} {w : HubWorld}
    (hrun : HubWorld.new.RunOf ClosesAfterSync es w) : w.panics = [] := by
  have hcalm : w.Calm := by
    apply hrun.invariant (I := Calm) _ calm_new
    intro s e s' hs hok hstep
    exact hs.step hok hstep
  exact hcalm.panics

def closesAfterSync (w : HubWorld) (e : HubEvent) : Bool :=
  match e, w.run with
  | .process, .locked (.unregister c) =>
      !(decide (c ∈ w.hub.clients) && (w.conns[c]?.any fun x => x.serve.maySend))
  | _, _ => true

theorem closesAfterSync_sound (w : HubWorld) (e : HubEvent) (h : w.closesAfterSync e = true) :
    w.ClosesAfterSync e := by
  cases e with
  | process =>
      intro c hrun hin hmay
      obtain ⟨x, hx, hserve⟩ := hmay
      simp [closesAfterSync, hrun, hin, hx, hserve] at h
  | _ => trivial

theorem no_send_after_leaving :
    ∃ w, HubWorld.new.RunOf ClosesAfterSync sampleHubRun w ∧ w.hub.wsDisconnects = 1 ∧
      w.panics = [] := by
  have hexecuted : (execute HubWorld.step closesAfterSync HubWorld.new sampleHubRun).any
      (fun w => w.hub.wsDisconnects == 1) = true := by decide +kernel
  obtain ⟨w, hrun, hw⟩ := Run.exists_of_execute closesAfterSync_sound hexecuted
  exact ⟨w, hrun, by simpa using hw, no_send_after_close hrun⟩

/-- A client disconnects after the query of its `SyncUnread` and before the first row is sent. -/
def leavesWhileSyncing : List HubEvent :=
  [.connect ⟨"t", "u", "", "x"⟩, .receiveRegister 0, .lock, .process, .unlock,
    .startWritePump 0, .startReadPump 0,
    .query 0 (some [some ⟨"n", "Notification", "", .empty, "in_app"⟩]),
    .readError 0, .receiveUnregister 0, .lock, .process, .unlock, .syncRow 0]

theorem sends_after_close :
    ¬ ∀ es w, HubWorld.new.RunOf (fun _ _ => True) es w → w.panics = [] := by
  intro hclaim
  have hexecuted : (execute HubWorld.step (fun _ _ => true) HubWorld.new leavesWhileSyncing).any
      (fun w => w.panics == [0]) = true := by decide +kernel
  obtain ⟨w, hrun, hw⟩ := exists_run hexecuted
  have hpanics : w.panics = [0] := by simpa using hw
  have hnone : w.panics = [] := hclaim _ w hrun
  simp [hpanics] at hnone

end HubWorld

end NotificationPlatform
