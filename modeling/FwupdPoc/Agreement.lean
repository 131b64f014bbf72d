import FwupdPoc.Daemon.Endings
import FwupdPoc.Lib.Stutter
import FwupdPoc.MainService.Calls

/-!
# The daemon and the app service

`handle_calls_cb` of the C daemon and `MainService` of the app implement the same interface,
`IPocFwupd`. A client that is bound to one or to the other makes the same calls (`ServiceCall`),
which the daemon gets as requests. The events they send to a listener in a round are the same up to
stuttering, and so are whole histories: where no trigger of the service throws, what it has called
is a plan that is made from the list of listeners alone (`runAll_planned`), as it is for the daemon
(`serve_served`).
-/

namespace FwupdPoc

open FailFast Stutter

/-! ## Histories -/

/-- The transaction that a call of the listener's proxy sends. -/
def ListenerEvent.transaction : ListenerEvent → ListenerTransaction
  | .onChanged => .onChanged
  | .onDeviceAdded _ => .onDeviceAdded
  | .onDeepExample _ => .onDeepExample
  | .onParams _ _ _ _ => .onParams
  | .onBundles _ _ _ => .onBundles

/-- The request that the daemon gets for a call. -/
def ServiceCall.request : ServiceCall → Request
  | .addListener listener => addListenerRequest listener
  | .triggerChange => triggerChangeRequest
  | .triggerDeviceAdded => ⟨some serviceIface, 19, none, none, none⟩

/-- Whom the daemon has called, and with which transaction. -/
def PocDaemon.history (s : PocDaemon) : List (Option Remote × ListenerTransaction) :=
  s.calls.map Prod.snd

/-- Whom the service has called, and with which transaction. -/
def ListenerCall.delivery (call : ListenerCall) : Option Remote × ListenerTransaction :=
  (some call.listener, call.event.transaction)

/-- Whom the service has called, in order. -/
def MainService.history (s : MainService) : List (Option Remote × ListenerTransaction) :=
  s.calls.map ListenerCall.delivery

/-! ## Runs of the service -/

/-- The listener that a call registers. -/
def ServiceCall.added : ServiceCall → List Listener
  | .addListener listener => [listener]
  | .triggerChange => []
  | .triggerDeviceAdded => []

/-- The calls to listeners that calls on the service ask for, from a list of listeners on. -/
def plannedCalls : List Listener → List ServiceCall → List ListenerCall
  | _, [] => []
  | listeners, call :: rest =>
    (call.events?.elim [] fun events => roundCalls events listeners) ++
      plannedCalls (listeners ++ call.added) rest

section Service

variable {react : Nat → Reaction}

/-- A trigger that returns has made the calls of its round and has left the list alone. -/
theorem notify_returned {events : List ListenerEvent} {s s' : MainService}
    (hrun : notify react events s = some (none, s')) :
    s' = { s with calls := s.calls ++ roundCalls events s.listeners.elements } := by
  by_cases h : Undisturbed react events s
  · cases hrun.symm.trans (notify_undisturbed react h)
    rfl
  · obtain ⟨exit, s₁, hthrew⟩ := notify_disturbed react h
    cases hrun.symm.trans hthrew

/-- What a call on the service that returns has done. -/
theorem ServiceCall.run_returned {call : ServiceCall} {s s' : MainService}
    (hrun : call.run react s = some (none, s')) :
    s'.listeners.elements = s.listeners.elements ++ call.added ∧
      s'.calls =
        s.calls ++ call.events?.elim [] fun events => roundCalls events s.listeners.elements := by
  cases call with
  | addListener listener =>
    cases hrun
    exact ⟨rfl, (List.append_nil _).symm⟩
  | triggerChange | triggerDeviceAdded =>
    rw [notify_returned hrun]
    exact ⟨(List.append_nil _).symm, rfl⟩

/-- Where no call throws, the service has called whom it was asked to call. -/
theorem runAll_planned : ∀ {calls : List ServiceCall} {s s' : MainService}
    {exits : List (Option (Exit ProxyException))},
    ServiceCall.runAll react calls s = some (exits, s') → (∀ exit ∈ exits, exit = none) →
      s'.calls = s.calls ++ plannedCalls s.listeners.elements calls
  | [], s, s', exits, hrun, _ => by
    cases hrun
    exact (List.append_nil _).symm
  | call :: rest, s, s', exits, hrun, hreturned => by
    obtain ⟨⟨exit, s₁⟩, hcall, hothers⟩ := Option.bind_eq_some_iff.1 hrun
    obtain ⟨⟨others, s₂⟩, hrest, heq⟩ := Option.map_eq_some_iff.1 hothers
    cases heq
    obtain rfl := hreturned exit List.mem_cons_self
    obtain ⟨hlisteners, hcalls⟩ := ServiceCall.run_returned hcall
    have hplanned := runAll_planned hrest fun exit h => hreturned exit (List.mem_cons_of_mem _ h)
    rw [hplanned, hcalls, hlisteners, plannedCalls, List.append_assoc]

end Service

/-! ## Rounds -/

/-- In a round, the daemon and the service send a listener the same events up to stuttering. -/
theorem ServiceCall.events_stutter (call : ServiceCall) :
    StutterEquivalent call.request.events
      ((call.events?.getD []).map ListenerEvent.transaction) := by
  cases call with
  | addListener listener =>
    have hevents : (addListenerRequest listener).events = [] := rfl
    rw [ServiceCall.request, hevents]
    exact .nil
  | triggerChange =>
    have hparams := StutterEquivalent.cons ListenerTransaction.onParams 0 1
      (StutterEquivalent.nil.one ListenerTransaction.onBundles)
    exact hparams.one .onChanged
  | triggerDeviceAdded =>
    have hexample := StutterEquivalent.cons ListenerTransaction.onDeepExample 1 0 .nil
    exact StutterEquivalent.cons ListenerTransaction.onDeviceAdded 2 0 hexample

/-- The calls of a round, without the entries they are made for. -/
theorem map_delivery_roundCalls (events : List ListenerEvent) (listeners : List Listener) :
    (roundCalls events listeners).map ListenerCall.delivery =
      listeners.flatMap fun listener =>
        (events.map ListenerEvent.transaction).map (Prod.mk (some listener)) := by
  have hzip : listeners = listeners.zipIdx.map Prod.fst := by
    rw [List.zipIdx_map_fst]
  conv => rhs; rw [hzip]
  rw [roundCalls, List.map_flatMap, List.flatMap_map]
  simp only [List.map_map]
  rfl

/-- What a call makes the daemon send is what it makes the service send, up to stuttering. -/
theorem ServiceCall.deliveries_stutter (call : ServiceCall) (listeners : List Listener) :
    StutterEquivalent (call.request.deliveries (listeners.map some))
      ((call.events?.elim [] fun events => roundCalls events listeners).map
        ListenerCall.delivery) := by
  have hservice : ((call.events?.elim [] fun events => roundCalls events listeners).map
      ListenerCall.delivery) = listeners.flatMap fun listener =>
        ((call.events?.getD []).map ListenerEvent.transaction).map (Prod.mk (some listener)) := by
    cases call.events? with
    | none => simp
    | some events => exact map_delivery_roundCalls events listeners
  rw [hservice, Request.deliveries_map_some]
  exact .flatMap fun listener _ => call.events_stutter.map _

/-- Whole plans agree as rounds do. -/
theorem plannedCalls_stutter : ∀ (calls : List ServiceCall) (listeners : List Listener)
    (transaction : Nat),
    StutterEquivalent
      ((requestedCalls transaction (listeners.map some) (calls.map ServiceCall.request)).map
        Prod.snd)
      ((plannedCalls listeners calls).map ListenerCall.delivery)
  | [], _, _ => .nil
  | call :: rest, listeners, transaction => by
    have hadded : listeners.map some ++ call.request.added =
        (listeners ++ call.added).map some := by
      rw [List.map_append]
      cases call <;> rfl
    have hrest := plannedCalls_stutter rest (listeners ++ call.added) (transaction + 1)
    rw [List.map_cons, requestedCalls, plannedCalls, List.map_append, List.map_append, hadded,
      List.map_map]
    refine StutterEquivalent.append ?_ hrest
    exact (List.map_id _).symm ▸ call.deliveries_stutter listeners

/-- **The daemon and the service call the same listeners with the same transactions in the same
order, up to stuttering, in every run that the daemon survives and in which no call on the service
throws; and so does each listener hear the same from both.** -/
theorem histories_agree {platform : DaemonPlatform} {react : Nat → Reaction}
    {calls : List ServiceCall} {s : PocDaemon} {s' : MainService}
    {exits : List (Option (Exit ProxyException))}
    (hserve : serve platform (calls.map ServiceCall.request) .start = .ok s)
    (hrun : ServiceCall.runAll react calls ⟨⟨[], 0⟩, []⟩ = some (exits, s'))
    (hreturned : ∀ exit ∈ exits, exit = none) :
    StutterEquivalent s.history s'.history ∧
      ∀ listener, StutterEquivalent
        (s.history.filter fun delivery => delivery.1 = some listener)
        (s'.history.filter fun delivery => delivery.1 = some listener) := by
  have hdaemon : s.calls = requestedCalls 0 [] (calls.map ServiceCall.request) :=
    (serve_served hserve).calls
  have hservice : s'.calls = plannedCalls [] calls := runAll_planned hrun hreturned
  have hagree : StutterEquivalent s.history s'.history := by
    rw [PocDaemon.history, MainService.history, hdaemon, hservice]
    exact plannedCalls_stutter calls [] 0
  exact ⟨hagree, fun listener => hagree.filter _⟩

/-- Two listeners, where nothing is made of the second `free` of a buffer. -/
theorem histories_agree_twoListeners :
    ∃ s exits s',
      serve { reliablePlatform with heapChecked := false }
        ([.addListener 1, .addListener 2, .triggerDeviceAdded].map ServiceCall.request) .start =
          .ok s ∧
      ServiceCall.runAll (fun _ => .plain)
        [.addListener 1, .addListener 2, .triggerDeviceAdded] ⟨⟨[], 0⟩, []⟩ = some (exits, s') ∧
      s.history.length = 10 ∧ s'.history.length = 4 ∧
      StutterEquivalent s.history s'.history ∧
      ∀ listener, StutterEquivalent
        (s.history.filter fun delivery => delivery.1 = some listener)
        (s'.history.filter fun delivery => delivery.1 = some listener) := by
  have hserve : ∃ s, serve { reliablePlatform with heapChecked := false }
      ([.addListener 1, .addListener 2, .triggerDeviceAdded].map ServiceCall.request) .start =
        .ok s ∧ s.history.length = 10 := ⟨_, rfl, rfl⟩
  have hrun : ∃ s', ServiceCall.runAll (fun _ => .plain)
      [.addListener 1, .addListener 2, .triggerDeviceAdded] ⟨⟨[], 0⟩, []⟩ =
        some ([none, none, none], s') ∧ s'.history.length = 4 := ⟨_, rfl, rfl⟩
  obtain ⟨s, hserve, hlength⟩ := hserve
  obtain ⟨s', hrun, hlength'⟩ := hrun
  exact ⟨s, _, s', hserve, hrun, hlength, hlength', histories_agree hserve hrun (by decide)⟩

end FwupdPoc
