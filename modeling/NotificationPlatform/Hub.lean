import NotificationPlatform.Lib.Index
import NotificationPlatform.Broadcast

/-!
# The goroutines around the websocket hub

`Hub.Run` registers and unregisters clients under the write lock of `Hub.mu`; the broadcasts and
the counts read under its read lock; `ServeWS` registers its client, starts the two pumps and then
sends the unread notifications itself, without the lock. Each goroutine takes its steps at any
moment its next statement can run.
-/

namespace NotificationPlatform

open Lib

structure WsClient where
  tenantID : String
  userID : String
  contactID : String
  externalUserID : String

/-- Where `ServeWS` stands after the upgrade: at `h.hub.register <- client`, before each of the
two `go` statements, at the query of `SyncUnread`, or in its loop with the rows still to come. A
row is `none` when its `Scan` fails. -/
inductive ServeState where
  | registering
  | registered
  | pumping
  | querying
  | syncing (rows : List (Option WsDelivery))
  | done

/-- There is still a delivery that `SyncUnread` may send. -/
def ServeState.maySend : ServeState → Bool
  | .registering | .registered | .pumping | .querying => true
  | .syncing rows => rows.any Option.isSome
  | .done => false

/-- `ServeWS` moves on: never back to its registration, and never to more deliveries. -/
def ServeState.Onward (serve serve' : ServeState) : Prop :=
  (serve' = .registering → serve = .registering) ∧ (serve'.maySend = true → serve.maySend = true)

/-- `ReadPump`, up to its deferred `c.hub.Unregister <- c`. -/
inductive ReadState where
  | notStarted
  | reading
  | leaving
  | done

inductive WriteState where
  | notStarted
  | writing
  | done

/-- A client, its send channel (what it holds and how often it was closed) and the goroutines
that serve it. -/
structure Connection where
  client : WsClient
  send : List WsDelivery
  closes : Nat
  serve : ServeState
  read : ReadState
  write : WriteState

/-- `NewClient`, at the end of which `ServeWS` is about to register it. -/
def newClient (client : WsClient) : Connection :=
  ⟨client, [], 0, .registering, .notStarted, .notStarted⟩

/-- `Client.SendDelivery`: the send on a closed channel panics, a full channel drops the
delivery. -/
def Connection.sendDelivery (x : Connection) (d : WsDelivery) : Option Connection :=
  if 0 < x.closes then none
  else if x.send.length < 64 then some { x with send := x.send ++ [d] }
  else some x

def Connection.close (x : Connection) : Connection := { x with closes := x.closes + 1 }

/-- `websocket.Hub`; a client stands for its pointer, the number of its connection. -/
structure Hub where
  clients : Finset Nat
  byTenant : String → Option (Finset Nat)
  wsMessagesSent : Nat
  wsDisconnects : Nat
  wsReconnectSyncs : Nat

def Hub.new : Hub := ⟨∅, fun _ => none, 0, 0, 0⟩

/-- What `Hub.Run` does under the lock with a client from `h.register`. -/
def Hub.runRegister (h : Hub) (c : Nat) (tenantID : String) : Hub :=
  { h with
    clients := insert c h.clients
    byTenant := fun t =>
      if t = tenantID then some (insert c ((h.byTenant t).getD ∅)) else h.byTenant t }

/-- What `Hub.Run` does under the lock with a client from `h.Unregister` that it knows, apart
from `close(client.send)`. -/
def Hub.runUnregister (h : Hub) (c : Nat) (tenantID : String) : Hub :=
  { h with
    clients := h.clients.erase c
    byTenant := fun t =>
      if t = tenantID then
        match h.byTenant t with
        | none => none
        | some s => if s.erase c = ∅ then none else some (s.erase c)
      else h.byTenant t
    wsDisconnects := h.wsDisconnects + 1 }

inductive HubMessage where
  | register (c : Nat)
  | unregister (c : Nat)

/-- `Hub.Run`: at the `select`, at `h.mu.Lock()`, inside the critical section, at
`h.mu.Unlock()`, or ended by `ctx.Done()` or by a panic. -/
inductive RunState where
  | idle
  | received (m : HubMessage)
  | locked (m : HubMessage)
  | processed
  | stopped

def RunState.holdsLock : RunState → Bool
  | .locked _ | .processed => true
  | _ => false

inductive HubCall where
  | broadcastToTenant (tenantID : String) (d : WsDelivery)
  | broadcastToUser (tenantID externalUserID : String) (d : WsDelivery)
  | activeConnections
  | activeByTenant (tenantID : String)

def HubCall.range (h : Hub) : HubCall → Finset Nat
  | .broadcastToTenant t _ | .broadcastToUser t _ _ => (h.byTenant t).getD ∅
  | .activeConnections | .activeByTenant _ => ∅

def HubCall.result (h : Hub) : HubCall → Option Nat
  | .broadcastToTenant _ _ | .broadcastToUser _ _ _ => none
  | .activeConnections => some h.clients.card
  | .activeByTenant t => some ((h.byTenant t).getD ∅).card

def HubCall.deliveryFor (x : WsClient) : HubCall → Option WsDelivery
  | .broadcastToTenant _ d => some d
  | .broadcastToUser _ externalUserID d => if x.externalUserID = externalUserID then some d else none
  | .activeConnections | .activeByTenant _ => none

def HubCall.isFor (x : WsClient) : HubCall → Prop
  | .broadcastToTenant t _ => x.tenantID = t
  | .broadcastToUser t externalUserID _ => x.tenantID = t ∧ x.externalUserID = externalUserID
  | .activeConnections | .activeByTenant _ => False

/-- A goroutine in one of the reading functions: at `h.mu.RLock()`, inside it with the clients its
loop has not visited yet, or returned. -/
inductive Caller where
  | waiting (op : HubCall)
  | holding (op : HubCall) (todo : Finset Nat)
  | returned (result : Option Nat)

def Caller.holdsLock : Caller → Bool
  | .holding _ _ => true
  | _ => false

/-- The hub, its goroutines and the history: the clients registered so far, the clients that a
broadcast put a delivery into the channel of, and the clients on whose channel a goroutine
panicked. -/
structure HubWorld where
  hub : Hub
  run : RunState
  conns : List Connection
  callers : List Caller
  registered : List Nat
  enqueued : List (HubCall × Nat)
  panics : List Nat

/-- The steps of the goroutines. `ServeWS` takes `connect`, `receiveRegister` (with `Run`),
`startWritePump`, `startReadPump`, `query` and `syncRow`; `ReadPump` takes `readError` and
`receiveUnregister` (with `Run`); `WritePump` takes `writeMessage` and `pingFails`; `Run` takes
`lock`, `process`, `unlock` and `stop`; the readers take the last four. The channel `Unregister` is
exported: `sendUnregister` is a message from any other goroutine. -/
inductive HubEvent where
  | connect (client : WsClient)
  | receiveRegister (c : Nat)
  | startWritePump (c : Nat)
  | startReadPump (c : Nat)
  | query (c : Nat) (rows : Option (List (Option WsDelivery)))
  | syncRow (c : Nat)
  | readError (c : Nat)
  | receiveUnregister (c : Nat)
  | sendUnregister (c : Nat)
  | writeMessage (c : Nat) (fails : Bool)
  | pingFails (c : Nat)
  | lock
  | process
  | unlock
  | stop
  | call (op : HubCall)
  | rlock (i : Nat)
  | visit (i c : Nat)
  | runlock (i : Nat)

namespace HubWorld

/-- The hub after `NewHub`, with `Hub.Run` at its `select`. -/
def new : HubWorld := ⟨.new, .idle, [], [], [], [], []⟩

def withConn (w : HubWorld) (c : Nat) (f : Connection → Connection) : HubWorld :=
  { w with conns := w.conns.modify c f }

def setServe (w : HubWorld) (c : Nat) (serve : ServeState) : HubWorld :=
  w.withConn c fun x => { x with serve := serve }

/-- `defer h.WSReconnectSyncs.Add(1)` and the end of `ServeWS`. -/
def endSync (w : HubWorld) (c : Nat) : HubWorld :=
  { w.setServe c .done with
    hub := { w.hub with wsReconnectSyncs := w.hub.wsReconnectSyncs + 1 } }

/-- One iteration of the loop of `SyncUnread`. A panic ends `ServeWS`; its deferred calls run. -/
def syncRow (w : HubWorld) (c : Nat) (x : Connection) : List (Option WsDelivery) → HubWorld
  | [] => w.endSync c
  | none :: rows => w.setServe c (.syncing rows)
  | some d :: rows =>
      match x.sendDelivery d with
      | none => { w.endSync c with panics := w.panics ++ [c] }
      | some x' => w.withConn c fun _ => { x' with serve := .syncing rows }

/-- The critical section of `Hub.Run`. Nobody else reads the two maps while the lock is held, so
its statements are one step; to close a closed channel panics. -/
def process (w : HubWorld) : HubMessage → HubWorld
  | .register c =>
      match w.conns[c]? with
      | none => w
      | some x =>
          { w with
            hub := w.hub.runRegister c x.client.tenantID
            run := .processed
            registered := w.registered ++ [c] }
  | .unregister c =>
      match w.conns[c]? with
      | none => w
      | some x =>
          if c ∈ w.hub.clients then
            if 0 < x.closes then { w with run := .stopped, panics := w.panics ++ [c] }
            else
              { w.withConn c Connection.close with
                hub := w.hub.runUnregister c x.client.tenantID
                run := .processed }
          else { w with run := .processed }

def visit (w : HubWorld) (i c : Nat) (op : HubCall) (todo : Finset Nat) (x : Connection) :
    HubWorld :=
  let w' := { w with callers := w.callers.set i (.holding op (todo.erase c)) }
  match op.deliveryFor x.client with
  | none => w'
  | some d =>
      match x.sendDelivery d with
      | none => { w with callers := w.callers.set i (.returned none), panics := w.panics ++ [c] }
      | some x' =>
          { w'.withConn c (fun _ => x') with
            hub := { w.hub with wsMessagesSent := w.hub.wsMessagesSent + 1 }
            enqueued := if x.send.length < 64 then w.enqueued ++ [(op, c)] else w.enqueued }

def step (w : HubWorld) : HubEvent → Option HubWorld
  | .connect client => some { w with conns := w.conns ++ [newClient client] }
  | .receiveRegister c =>
      match w.run, w.conns[c]? with
      | .idle, some ⟨_, _, _, .registering, _, _⟩ =>
          some { w.setServe c .registered with run := .received (.register c) }
      | _, _ => none
  | .startWritePump c =>
      match w.conns[c]? with
      | some ⟨_, _, _, .registered, _, _⟩ =>
          some (w.withConn c fun x => { x with serve := .pumping, write := .writing })
      | _ => none
  | .startReadPump c =>
      match w.conns[c]? with
      | some ⟨_, _, _, .pumping, _, _⟩ =>
          some (w.withConn c fun x => { x with serve := .querying, read := .reading })
      | _ => none
  | .query c rows =>
      match w.conns[c]? with
      | some ⟨_, _, _, .querying, _, _⟩ =>
          match rows with
          | none => some (w.endSync c)
          | some rows => some (w.setServe c (.syncing (rows.take 50)))
      | _ => none
  | .syncRow c =>
      match w.conns[c]? with
      | some ⟨client, send, closes, .syncing rows, read, write⟩ =>
          some (w.syncRow c ⟨client, send, closes, .syncing rows, read, write⟩ rows)
      | _ => none
  | .readError c =>
      match w.conns[c]? with
      | some ⟨_, _, _, _, .reading, _⟩ => some (w.withConn c fun x => { x with read := .leaving })
      | _ => none
  | .receiveUnregister c =>
      match w.run, w.conns[c]? with
      | .idle, some ⟨_, _, _, _, .leaving, _⟩ =>
          some { w.withConn c (fun x => { x with read := .done }) with
            run := .received (.unregister c) }
      | _, _ => none
  | .sendUnregister c =>
      match w.run, w.conns[c]? with
      | .idle, some _ => some { w with run := .received (.unregister c) }
      | _, _ => none
  | .writeMessage c fails =>
      match w.conns[c]? with
      | some ⟨_, send, closes, _, _, .writing⟩ =>
          match send with
          | _ :: _ => some (w.withConn c fun x =>
              { x with send := x.send.tail, write := if fails then .done else .writing })
          -- an empty open channel blocks, a closed one ends the pump
          | [] => if 0 < closes then some (w.withConn c fun x => { x with write := .done }) else none
      | _ => none
  | .pingFails c =>
      match w.conns[c]? with
      | some ⟨_, _, _, _, _, .writing⟩ => some (w.withConn c fun x => { x with write := .done })
      | _ => none
  | .lock =>
      match w.run with
      | .received m => if w.callers.any Caller.holdsLock then none else some { w with run := .locked m }
      | _ => none
  | .process =>
      match w.run with
      | .locked m => some (w.process m)
      | _ => none
  | .unlock =>
      match w.run with
      | .processed => some { w with run := .idle }
      | _ => none
  | .stop =>
      match w.run with
      | .idle => some { w with run := .stopped }
      | _ => none
  | .call op => some { w with callers := w.callers ++ [.waiting op] }
  | .rlock i =>
      match w.callers[i]? with
      | some (.waiting op) =>
          if w.run.holdsLock then none
          else some { w with callers := w.callers.set i (.holding op (op.range w.hub)) }
      | _ => none
  | .visit i c =>
      match w.callers[i]?, w.conns[c]? with
      | some (.holding op todo), some x =>
          if c ∈ todo then some (w.visit i c op todo x) else none
      | _, _ => none
  | .runlock i =>
      match w.callers[i]? with
      | some (.holding op todo) =>
          if todo = ∅ then some { w with callers := w.callers.set i (.returned (op.result w.hub)) }
          else none
      | _ => none

/-- A run of the goroutines whose steps all meet a condition on the state they are taken in. -/
abbrev RunOf (ok : HubWorld → HubEvent → Prop) : HubWorld → List HubEvent → HubWorld → Prop :=
  Run step ok

def clientOf (w : HubWorld) (c : Nat) : Option WsClient := w.conns[c]?.map Connection.client

def tenantOf (w : HubWorld) (c : Nat) : String :=
  ((w.clientOf c).map WsClient.tenantID).getD ""

def closesOf (w : HubWorld) (c : Nat) : Option Nat := w.conns[c]?.map Connection.closes

/-- `ServeWS` is still at `h.hub.register <- client`. -/
def Awaits (w : HubWorld) (c : Nat) : Prop := ∃ x, w.conns[c]? = some x ∧ x.serve = .registering

def MaySend (w : HubWorld) (c : Nat) : Prop := ∃ x, w.conns[c]? = some x ∧ x.serve.maySend = true

/-- `Hub.Run` has received the client and not entered it yet. -/
def Admits (w : HubWorld) (c : Nat) : Prop :=
  w.run = .received (.register c) ∨ w.run = .locked (.register c)

/-- The two maps, the channels and the counter agree with the registrations so far. -/
structure Tracks (w : HubWorld) : Prop where
  index : w.hub.byTenant = indexed w.tenantOf w.hub.clients
  known : ∀ c ∈ w.hub.clients, c ∈ w.registered
  nodup : w.registered.Nodup
  count : w.registered.length = w.hub.clients.card + w.hub.wsDisconnects
  isOpen : ∀ c ∈ w.hub.clients, w.closesOf c = some 0
  unused : ∀ c n, c ∉ w.registered → w.closesOf c = some n → n = 0
  closed : ∀ c ∈ w.registered, c ∉ w.hub.clients → w.closesOf c = some 1
  awaiting : ∀ c, w.Awaits c → c ∉ w.registered ∧ ¬ w.Admits c
  admitted : ∀ c, w.Admits c → c ∉ w.registered ∧ ∃ n, w.closesOf c = some n

/-- A step that neither opens a connection nor enters or removes a client. -/
structure Quiet (w w' : HubWorld) : Prop where
  clients : w'.hub.clients = w.hub.clients
  byTenant : w'.hub.byTenant = w.hub.byTenant
  disconnects : w'.hub.wsDisconnects = w.hub.wsDisconnects
  registered : w'.registered = w.registered
  clientOf : w'.clientOf = w.clientOf
  closesOf : w'.closesOf = w.closesOf
  awaits : ∀ c, w'.Awaits c → w.Awaits c
  maySend : ∀ c, w'.MaySend c → w.MaySend c
  admits : ∀ c, w'.Admits c → w.Admits c

section

variable {w w' : HubWorld} {e : HubEvent} {c : Nat} {f : Connection → Connection}

private theorem map_modify {β : Type} {g : Connection → β} {l : List Connection}
    (h : ∀ x, l[c]? = some x → g (f x) = g x) (c' : Nat) :
    ((l.modify c f)[c']?).map g = (l[c']?).map g := by
  rw [List.getElem?_modify]
  by_cases hc : c = c'
  · subst hc
    cases hx : l[c]? with
    | none => rfl
    | some x => simp [h x hx]
  · simp [hc]

theorem clientOf_withConn (h : ∀ x, w.conns[c]? = some x → (f x).client = x.client) :
    (w.withConn c f).clientOf = w.clientOf := by
  funext c'
  exact map_modify h c'

theorem closesOf_withConn (h : ∀ x, w.conns[c]? = some x → (f x).closes = x.closes) :
    (w.withConn c f).closesOf = w.closesOf := by
  funext c'
  exact map_modify h c'

theorem serve_withConn {p : ServeState → Prop}
    (h : ∀ x, w.conns[c]? = some x → p (f x).serve → p x.serve) {c' : Nat} {x' : Connection}
    (hx' : (w.withConn c f).conns[c']? = some x') (hp : p x'.serve) :
    ∃ x, w.conns[c']? = some x ∧ p x.serve := by
  change (w.conns.modify c f)[c']? = some x' at hx'
  rw [List.getElem?_modify] at hx'
  by_cases hc : c = c'
  · subst hc
    cases hx : w.conns[c]? with
    | none => simp [hx] at hx'
    | some x =>
        have hfx : f x = x' := by simpa [hx] using hx'
        subst hfx
        exact ⟨x, rfl, h x hx hp⟩
  · exact ⟨x', by simpa [hc] using hx', hp⟩

theorem awaits_withConn
    (h : ∀ x, w.conns[c]? = some x → (f x).serve = .registering → x.serve = .registering)
    {c' : Nat} (hawaits : (w.withConn c f).Awaits c') : w.Awaits c' := by
  obtain ⟨x', hx', hserve⟩ := hawaits
  exact serve_withConn (p := fun serve => serve = .registering) h hx' hserve

theorem maySend_withConn
    (h : ∀ x, w.conns[c]? = some x → (f x).serve.maySend = true → x.serve.maySend = true)
    {c' : Nat} (hmay : (w.withConn c f).MaySend c') : w.MaySend c' := by
  obtain ⟨x', hx', hserve⟩ := hmay
  exact serve_withConn (p := fun serve => serve.maySend = true) h hx' hserve

theorem quiet_withConn
    (h : ∀ x, w.conns[c]? = some x → (f x).client = x.client ∧ (f x).closes = x.closes ∧
      x.serve.Onward (f x).serve) : w.Quiet (w.withConn c f) where
  clients := rfl
  byTenant := rfl
  disconnects := rfl
  registered := rfl
  clientOf := clientOf_withConn fun x hx => (h x hx).1
  closesOf := closesOf_withConn fun x hx => (h x hx).2.1
  awaits := fun _ => awaits_withConn fun x hx => (h x hx).2.2.1
  maySend := fun _ => maySend_withConn fun x hx => (h x hx).2.2.2
  admits := fun _ hadmits => hadmits

theorem quiet_of_eq (hclients : w'.hub.clients = w.hub.clients)
    (hbyTenant : w'.hub.byTenant = w.hub.byTenant)
    (hdisconnects : w'.hub.wsDisconnects = w.hub.wsDisconnects)
    (hregistered : w'.registered = w.registered) (hconns : w'.conns = w.conns)
    (hadmits : ∀ c, w'.Admits c → w.Admits c) : w.Quiet w' where
  clients := hclients
  byTenant := hbyTenant
  disconnects := hdisconnects
  registered := hregistered
  clientOf := by
    funext c
    simp only [clientOf, hconns]
  closesOf := by
    funext c
    simp only [closesOf, hconns]
  awaits := fun c hc => by simpa only [Awaits, hconns] using hc
  maySend := fun c hc => by simpa only [MaySend, hconns] using hc
  admits := hadmits

theorem Tracks.quiet (h : w.Tracks) (hquiet : w.Quiet w') : w'.Tracks where
  index := by
    have htenant : w'.tenantOf = w.tenantOf := by
      funext c
      simp only [tenantOf, hquiet.clientOf]
    rw [hquiet.clients, hquiet.byTenant, htenant]
    exact h.index
  known := by
    rw [hquiet.clients, hquiet.registered]
    exact h.known
  nodup := by
    rw [hquiet.registered]
    exact h.nodup
  count := by
    rw [hquiet.registered, hquiet.clients, hquiet.disconnects]
    exact h.count
  isOpen := by
    rw [hquiet.clients, hquiet.closesOf]
    exact h.isOpen
  unused := by
    rw [hquiet.registered, hquiet.closesOf]
    exact h.unused
  closed := by
    rw [hquiet.registered, hquiet.clients, hquiet.closesOf]
    exact h.closed
  awaiting := by
    intro c hc
    rw [hquiet.registered]
    obtain ⟨hregistered, hadmits⟩ := h.awaiting c (hquiet.awaits c hc)
    exact ⟨hregistered, fun hc' => hadmits (hquiet.admits c hc')⟩
  admitted := by
    intro c hc
    rw [hquiet.registered, hquiet.closesOf]
    exact h.admitted c (hquiet.admits c hc)

theorem sendDelivery_some {x x' : Connection} {d : WsDelivery}
    (h : x.sendDelivery d = some x') :
    x.closes = 0 ∧ x'.client = x.client ∧ x'.closes = x.closes ∧ x'.serve = x.serve := by
  unfold Connection.sendDelivery at h
  split at h
  · simp at h
  · next hopen =>
      have hzero : x.closes = 0 := by omega
      split at h
      · obtain rfl := Option.some.inj h
        exact ⟨hzero, rfl, rfl, rfl⟩
      · obtain rfl := Option.some.inj h
        exact ⟨hzero, rfl, rfl, rfl⟩

theorem onward_done {serve : ServeState} : serve.Onward .done := ⟨by simp, by simp [ServeState.maySend]⟩

theorem onward_refl {serve : ServeState} : serve.Onward serve := ⟨fun h => h, fun h => h⟩

theorem onward_of_maySend {serve serve' : ServeState} (h : serve.maySend = true)
    (hserve : serve' ≠ .registering) : serve.Onward serve' :=
  ⟨fun heq => absurd heq hserve, fun _ => h⟩

theorem onward_syncing {row : Option WsDelivery} {rows : List (Option WsDelivery)} :
    (ServeState.syncing (row :: rows)).Onward (.syncing rows) := by
  refine ⟨by simp, ?_⟩
  intro h
  simp only [ServeState.maySend, List.any_cons] at h ⊢
  rw [h, Bool.or_true]

theorem quiet_setServe {serve : ServeState}
    (h : ∀ x, w.conns[c]? = some x → x.serve.Onward serve) : w.Quiet (w.setServe c serve) := by
  apply quiet_withConn
  intro x hx
  exact ⟨rfl, rfl, h x hx⟩

theorem quiet_endSync : w.Quiet (w.endSync c) := by
  have hset : w.Quiet (w.setServe c .done) := quiet_setServe fun _ _ => onward_done
  exact ⟨rfl, rfl, rfl, rfl, hset.clientOf, hset.closesOf, hset.awaits, hset.maySend, hset.admits⟩

theorem quiet_syncRow {x : Connection} {rows : List (Option WsDelivery)}
    (hx : w.conns[c]? = some x) (hserve : x.serve = .syncing rows) :
    w.Quiet (w.syncRow c x rows) := by
  unfold syncRow
  split
  · exact quiet_endSync
  · apply quiet_setServe
    intro y hy
    obtain rfl : x = y := Option.some.inj (hx.symm.trans hy)
    rw [hserve]
    exact onward_syncing
  · split
    · have hend : w.Quiet (w.endSync c) := quiet_endSync
      exact ⟨rfl, rfl, rfl, rfl, hend.clientOf, hend.closesOf, hend.awaits, hend.maySend,
        hend.admits⟩
    · next x' hsent =>
        obtain ⟨-, hclient, hcloses, -⟩ := sendDelivery_some hsent
        apply quiet_withConn
        intro y hy
        obtain rfl : x = y := Option.some.inj (hx.symm.trans hy)
        refine ⟨hclient, hcloses, ?_⟩
        rw [hserve]
        exact onward_syncing

theorem quiet_visit {i : Nat} {op : HubCall} {todo : Finset Nat} {x : Connection}
    (hx : w.conns[c]? = some x) : w.Quiet (w.visit i c op todo x) := by
  unfold visit
  split
  · exact quiet_of_eq rfl rfl rfl rfl rfl fun _ h => h
  · split
    · exact quiet_of_eq rfl rfl rfl rfl rfl fun _ h => h
    · next x' hsent =>
        obtain ⟨-, hclient, hcloses, hserve⟩ := sendDelivery_some hsent
        have hset : w.Quiet (w.withConn c fun _ => x') := by
          apply quiet_withConn
          intro y hy
          obtain rfl : x = y := Option.some.inj (hx.symm.trans hy)
          refine ⟨hclient, hcloses, ?_⟩
          rw [hserve]
          exact onward_refl
        exact ⟨rfl, rfl, rfl, rfl, hset.clientOf, hset.closesOf, hset.awaits, hset.maySend,
          hset.admits⟩

/-- What a step can do: a new connection, a client received for registration, the critical
section of `Hub.Run`, a row of `SyncUnread`, a step of a reader, or something that touches only
the pumps and the lock. -/
inductive Moves (w : HubWorld) : HubEvent → HubWorld → Prop
  | connect (client : WsClient) :
      w.Moves (.connect client) { w with conns := w.conns ++ [newClient client] }
  | receiveRegister {c : Nat} (hc : w.Awaits c) :
      w.Moves (.receiveRegister c)
        { w.setServe c .registered with run := .received (.register c) }
  | process {m : HubMessage} (hm : w.run = .locked m) : w.Moves .process (w.process m)
  | syncRow {c : Nat} {x : Connection} {rows : List (Option WsDelivery)}
      (hx : w.conns[c]? = some x) (hserve : x.serve = .syncing rows) :
      w.Moves (.syncRow c) (w.syncRow c x rows)
  | call (op : HubCall) : w.Moves (.call op) { w with callers := w.callers ++ [.waiting op] }
  | rlock {i : Nat} (op : HubCall) (hfree : w.run.holdsLock = false) :
      w.Moves (.rlock i) { w with callers := w.callers.set i (.holding op (op.range w.hub)) }
  | visit {i c : Nat} {op : HubCall} {todo : Finset Nat} {x : Connection}
      (hcaller : w.callers[i]? = some (.holding op todo)) (hx : w.conns[c]? = some x)
      (hc : c ∈ todo) : w.Moves (.visit i c) (w.visit i c op todo x)
  | runlock {i : Nat} (result : Option Nat) :
      w.Moves (.runlock i) { w with callers := w.callers.set i (.returned result) }
  | other {e : HubEvent} {w' : HubWorld} (hquiet : w.Quiet w') (hcallers : w'.callers = w.callers)
      (henqueued : w'.enqueued = w.enqueued) (hpanics : w'.panics = w.panics)
      (hlock : w'.run.holdsLock = true →
        w.run.holdsLock = true ∨ w.callers.any Caller.holdsLock = false) : w.Moves e w'

theorem Moves.local
    (h : ∀ x, w.conns[c]? = some x → (f x).client = x.client ∧ (f x).closes = x.closes ∧
      x.serve.Onward (f x).serve) : w.Moves e (w.withConn c f) :=
  .other (quiet_withConn h) rfl rfl rfl .inl

theorem Moves.runs {run : RunState} (hadmits : ∀ c, run ≠ .received (.register c))
    (hlocked : ∀ m, run = .locked m → w.run = .received m)
    (hlock : run.holdsLock = true →
      w.run.holdsLock = true ∨ w.callers.any Caller.holdsLock = false) :
    w.Moves e { w with run := run } := by
  refine .other (quiet_of_eq rfl rfl rfl rfl rfl ?_) rfl rfl rfl hlock
  rintro c (hc | hc)
  · exact absurd hc (hadmits c)
  · exact .inl (hlocked _ hc)

theorem step_moves (h : w.step e = some w') : w.Moves e w' := by
  cases e with
  | connect client =>
      obtain rfl := Option.some.inj h
      exact .connect client
  | receiveRegister c =>
      simp only [step] at h
      split at h
      · next hx =>
          obtain rfl := Option.some.inj h
          exact .receiveRegister ⟨_, hx, rfl⟩
      · simp at h
  | startWritePump c =>
      simp only [step] at h
      split at h
      · next hx =>
          obtain rfl := Option.some.inj h
          apply Moves.local
          intro x hx'
          obtain rfl := Option.some.inj (hx.symm.trans hx')
          exact ⟨rfl, rfl, onward_of_maySend rfl (by simp)⟩
      · simp at h
  | startReadPump c =>
      simp only [step] at h
      split at h
      · next hx =>
          obtain rfl := Option.some.inj h
          apply Moves.local
          intro x hx'
          obtain rfl := Option.some.inj (hx.symm.trans hx')
          exact ⟨rfl, rfl, onward_of_maySend rfl (by simp)⟩
      · simp at h
  | query c rows =>
      simp only [step] at h
      split at h
      · next hx =>
          split at h
          · obtain rfl := Option.some.inj h
            exact .other quiet_endSync rfl rfl rfl .inl
          · obtain rfl := Option.some.inj h
            apply Moves.local
            intro x hx'
            obtain rfl := Option.some.inj (hx.symm.trans hx')
            exact ⟨rfl, rfl, onward_of_maySend rfl (by simp)⟩
      · simp at h
  | syncRow c =>
      simp only [step] at h
      split at h
      · next hx =>
          obtain rfl := Option.some.inj h
          exact .syncRow hx rfl
      · simp at h
  | readError c =>
      simp only [step] at h
      split at h
      · obtain rfl := Option.some.inj h
        exact .local fun _ _ => ⟨rfl, rfl, onward_refl⟩
      · simp at h
  | receiveUnregister c =>
      simp only [step] at h
      split at h
      · obtain rfl := Option.some.inj h
        have hset : w.Quiet (w.withConn c fun x => { x with read := .done }) :=
          quiet_withConn fun _ _ => ⟨rfl, rfl, onward_refl⟩
        refine .other ⟨rfl, rfl, rfl, rfl, hset.clientOf, hset.closesOf, hset.awaits, hset.maySend,
          ?_⟩ rfl rfl rfl (by simp [RunState.holdsLock])
        intro c' hadmits
        simp [Admits] at hadmits
      · simp at h
  | sendUnregister c =>
      simp only [step] at h
      split at h
      · obtain rfl := Option.some.inj h
        exact .runs (by simp) (by simp) (by simp [RunState.holdsLock])
      · simp at h
  | writeMessage c fails =>
      simp only [step] at h
      split at h
      · split at h
        · obtain rfl := Option.some.inj h
          exact .local fun _ _ => ⟨rfl, rfl, onward_refl⟩
        · split at h
          · obtain rfl := Option.some.inj h
            exact .local fun _ _ => ⟨rfl, rfl, onward_refl⟩
          · simp at h
      · simp at h
  | pingFails c =>
      simp only [step] at h
      split at h
      · obtain rfl := Option.some.inj h
        exact .local fun _ _ => ⟨rfl, rfl, onward_refl⟩
      · simp at h
  | lock =>
      simp only [step] at h
      split at h
      · next m hm =>
          split at h
          · simp at h
          · next hnone =>
              obtain rfl := Option.some.inj h
              refine .runs (by simp) ?_ fun _ => .inr (by simpa using hnone)
              intro m' hm'
              rw [hm, RunState.locked.inj hm']
      · simp at h
  | process =>
      simp only [step] at h
      split at h
      · next m hm =>
          obtain rfl := Option.some.inj h
          exact .process hm
      · simp at h
  | unlock =>
      simp only [step] at h
      split at h
      · obtain rfl := Option.some.inj h
        exact .runs (by simp) (by simp) (by simp [RunState.holdsLock])
      · simp at h
  | stop =>
      simp only [step] at h
      split at h
      · obtain rfl := Option.some.inj h
        exact .runs (by simp) (by simp) (by simp [RunState.holdsLock])
      · simp at h
  | call op =>
      obtain rfl := Option.some.inj h
      exact .call op
  | rlock i =>
      simp only [step] at h
      split at h
      · next op _ =>
          split at h
          · simp at h
          · next hfree =>
              obtain rfl := Option.some.inj h
              exact .rlock op (by simpa using hfree)
      · simp at h
  | visit i c =>
      simp only [step] at h
      split at h
      · next hcaller hx =>
          split at h
          · next hc =>
              obtain rfl := Option.some.inj h
              exact .visit hcaller hx hc
          · simp at h
      · simp at h
  | runlock i =>
      simp only [step] at h
      split at h
      · split at h
        · obtain rfl := Option.some.inj h
          exact .runlock _
        · simp at h
      · simp at h

theorem Moves.cases (h : w.Moves e w') :
    (∃ client, w' = { w with conns := w.conns ++ [newClient client] }) ∨
      (∃ c, w.Awaits c ∧ w' = { w.setServe c .registered with run := .received (.register c) }) ∨
      (∃ m, e = .process ∧ w.run = .locked m ∧ w' = w.process m) ∨ w.Quiet w' := by
  cases h with
  | connect client => exact .inl ⟨client, rfl⟩
  | receiveRegister hc => exact .inr (.inl ⟨_, hc, rfl⟩)
  | process hm => exact .inr (.inr (.inl ⟨_, rfl, hm, rfl⟩))
  | syncRow hx hserve => exact .inr (.inr (.inr (quiet_syncRow hx hserve)))
  | call op => exact .inr (.inr (.inr (quiet_of_eq rfl rfl rfl rfl rfl fun _ h => h)))
  | rlock op hfree => exact .inr (.inr (.inr (quiet_of_eq rfl rfl rfl rfl rfl fun _ h => h)))
  | visit hcaller hx hc => exact .inr (.inr (.inr (quiet_visit hx)))
  | runlock result => exact .inr (.inr (.inr (quiet_of_eq rfl rfl rfl rfl rfl fun _ h => h)))
  | other hquiet _ _ _ _ => exact .inr (.inr (.inr hquiet))

end

end HubWorld

end NotificationPlatform
