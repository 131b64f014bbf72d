import FwupdPoc.Daemon

/-!
# Notification rounds

What a transaction does, for any way in which the calls to listeners are carried out. A trigger is
a round: if it ends, it has sent the calls of its loop body to each entry of the registry as the
round left it (`forListeners_sound`), because the registry only grows and the loop reads it anew,
and over a registry that stays as it is a round ends if its calls do (`forListeners_complete`).
Every other transaction is described by a table of faults and added listeners
(`handleCallsCb_of_no_round`). Both are put together in `handleCallsCb_sound` and
`handleCallsCb_complete`, which the modules on runs of the daemon use.
-/

namespace FwupdPoc

variable {platform : DaemonPlatform} {transact : Transact} {transaction : Nat}

/-! ## Loop bodies -/

/-- The calls of a loop body, which are none without a client. -/
def Action.calls (transaction : Nat) (target : Option Remote) : List Action → List Call
  | [] => []
  | .send code payload :: rest =>
    if target = none then calls transaction target rest
    else ⟨transaction, target, code, payload⟩ :: calls transaction target rest
  | .free _ :: rest => calls transaction target rest
  | .assign :: rest => calls transaction target rest

/-- A loop body frees a buffer that has been freed. -/
def Action.freesTwice : List Action → List Nat → Bool
  | [], _ => false
  | .send _ _ :: rest, freed => freesTwice rest freed
  | .free buffer :: rest, freed => buffer ∈ freed || freesTwice rest (buffer :: freed)
  | .assign :: rest, freed => freesTwice rest freed

/-- A loop body assigns to a struct. -/
def Action.assigns : List Action → Bool
  | [] => false
  | .send _ _ :: rest => assigns rest
  | .free _ :: rest => assigns rest
  | .assign :: _ => true

/-- The steps of a loop body end the process, behind the buffers that have been freed. -/
def Action.Stop (platform : DaemonPlatform) (target : Option Remote) (actions : List Action)
    (freed : List Nat) : Prop :=
  (target = none ∧ Action.assigns actions) ∨
    (platform.heapChecked ∧ Action.freesTwice actions freed)

/-- Makes calls one after the other. -/
def sendAll (transact : Transact) : List Call → PocDaemon → Except Fault PocDaemon
  | [], s => .ok s
  | call :: rest, s =>
    match transact call s with
    | .ok s' => sendAll transact rest s'
    | .error fault => .error fault

/-- The calls of a daemon that receives nothing while it waits for a reply. -/
def transactAlone (platform : DaemonPlatform) : Transact := fun call s =>
  .ok { s with sent := s.sent ++ [(call, platform.status s.sent.length)] }

theorem transactSyncReply_nil (platform : DaemonPlatform)
    (answer : Request → PocDaemon → Except Fault (Answer × PocDaemon)) :
    transactSyncReply platform (fun _ => []) answer = transactAlone platform := rfl

/-- A platform on which nothing fails and which checks its heap. -/
def reliablePlatform : DaemonPlatform where
  heapChecked := true
  toleratesNullClient := false
  library _ := ⟨fun _ => statusOk, false, false, fun _ => statusOk⟩
  status _ := statusOk

/-- Making calls succeeds if the first one does and the others do behind it. -/
theorem sendAll_cons {call : Call} {rest : List Call} {s s' : PocDaemon} :
    sendAll transact (call :: rest) s = .ok s' ↔
      ∃ s₁, transact call s = .ok s₁ ∧ sendAll transact rest s₁ = .ok s' := by
  rw [sendAll]
  cases transact call s with
  | ok s₁ => simp
  | error fault => simp

theorem sendAll_append {calls calls' : List Call} {s s' : PocDaemon} :
    sendAll transact (calls ++ calls') s = .ok s' ↔
      ∃ s₁, sendAll transact calls s = .ok s₁ ∧ sendAll transact calls' s₁ = .ok s' := by
  induction calls generalizing s with
  | nil => simp [sendAll]
  | cons call rest ih =>
    rw [List.cons_append, sendAll_cons]
    constructor
    · rintro ⟨s₁, hcall, hrest⟩
      obtain ⟨s₂, h₁, h₂⟩ := ih.1 hrest
      exact ⟨s₂, sendAll_cons.2 ⟨s₁, hcall, h₁⟩, h₂⟩
    · rintro ⟨s₂, h₁, h₂⟩
      obtain ⟨s₁, hcall, hrest⟩ := sendAll_cons.1 h₁
      exact ⟨s₁, hcall, ih.2 ⟨s₂, hrest, h₂⟩⟩

/-- A loop body succeeds if no step ends the process and its calls succeed. -/
theorem runActions_ok {target : Option Remote} :
    ∀ {actions : List Action} {freed : List Nat} {s s' : PocDaemon},
      runActions platform transact transaction target actions freed s = .ok s' ↔
        ¬ Action.Stop platform target actions freed ∧
          sendAll transact (Action.calls transaction target actions) s = .ok s'
  | [], freed, s, s' => by
    simp [runActions, Action.Stop, Action.assigns, Action.freesTwice, Action.calls, sendAll]
  | .send code payload :: rest, freed, s, s' => by
    rw [runActions, Action.calls, Action.Stop, Action.assigns, Action.freesTwice]
    by_cases hnull : target = none
    · rw [if_pos hnull, if_pos hnull]
      exact runActions_ok
    · rw [if_neg hnull, if_neg hnull, sendAll]
      cases transact ⟨transaction, target, code, payload⟩ s with
      | ok s₁ => exact runActions_ok
      | error fault => simp
  | .free buffer :: rest, freed, s, s' => by
    rw [runActions, Action.calls, Action.Stop, Action.assigns, Action.freesTwice]
    by_cases hfreed : platform.heapChecked ∧ buffer ∈ freed
    · simp [hfreed]
    · rw [if_neg hfreed, runActions_ok]
      refine and_congr_left fun _ => not_congr (or_congr_right (and_congr_right fun hchecked => ?_))
      have hnot : buffer ∉ freed := fun h => hfreed ⟨hchecked, h⟩
      simp [hnot]
  | .assign :: rest, freed, s, s' => by
    rw [runActions, Action.calls, Action.Stop, Action.assigns, Action.freesTwice]
    by_cases hnull : target = none
    · simp [hnull]
    · rw [if_neg hnull, runActions_ok, Action.Stop]
      simp [hnull]

/-- Requests are handled if the first one is and the others are behind it. -/
theorem answerAll_cons {answer : Request → PocDaemon → Except Fault (Answer × PocDaemon)}
    {req : Request} {rest : List Request} {s s' : PocDaemon} :
    answerAll answer (req :: rest) s = .ok s' ↔
      ∃ reply s₁, answer req s = .ok (reply, s₁) ∧ answerAll answer rest s₁ = .ok s' := by
  rw [answerAll]
  cases answer req s with
  | ok result =>
    refine ⟨fun h => ⟨result.1, result.2, rfl, h⟩, fun ⟨reply, s₁, hreq, hrest⟩ => ?_⟩
    cases hreq
    exact hrest
  | error fault => simp

/-! ## The registry -/

/-- What happens during a call to a listener can only add to the registry. -/
def Grows (transact : Transact) : Prop :=
  ∀ call s s', transact call s = .ok s' → s.listenerArray <+: s'.listenerArray

theorem sendAll_grows (h : Grows transact) :
    ∀ {calls : List Call} {s s' : PocDaemon}, sendAll transact calls s = .ok s' →
      s.listenerArray <+: s'.listenerArray
  | [], s, s', hrun => by
    cases hrun
    exact List.prefix_refl _
  | call :: rest, s, s', hrun => by
    obtain ⟨s₁, hcall, hrest⟩ := sendAll_cons.1 hrun
    exact (h call s s₁ hcall).trans (sendAll_grows h hrest)

/-- The calls of a round to some listeners, which are numbered from `i` on. -/
def listenerCalls (transaction : Nat) (actions : Nat → List Action) :
    List (Option Remote) → Nat → List Call
  | [], _ => []
  | target :: rest, i =>
    Action.calls transaction target (actions i) ++ listenerCalls transaction actions rest (i + 1)

/-- The body of a loop ends the process at an entry: where the client is NULL, or in one of its
steps. -/
def Action.StopsAt (platform : DaemonPlatform) (target : Option Remote) (actions : List Action) :
    Prop :=
  (target = none ∧ ¬ platform.toleratesNullClient) ∨ Action.Stop platform target actions []

theorem listenerBody_ok {actions : Nat → List Action} {i : Nat} {target : Option Remote}
    {s s' : PocDaemon} :
    listenerBody platform transact transaction actions i target s = .ok s' ↔
      ¬ Action.StopsAt platform target (actions i) ∧
        sendAll transact (Action.calls transaction target (actions i)) s = .ok s' := by
  rw [listenerBody, Action.StopsAt, not_or, and_assoc, ← runActions_ok]
  by_cases hnull : target = none ∧ ¬ platform.toleratesNullClient
  · simp [hnull]
  · rw [if_neg hnull]
    exact ⟨fun h => ⟨hnull, h⟩, fun h => h.2⟩

theorem listenerBody_appends (h : Grows transact) {actions : Nat → List Action} :
    Growing.Appends PocDaemon.listenerArray
      (listenerBody platform transact transaction actions) := by
  intro i target s s' hbody
  exact sendAll_grows h (listenerBody_ok.1 hbody).2

/-- A loop over some listeners succeeds if it ends the process at none of them and its calls
succeed. -/
theorem forList_listenerBody {actions : Nat → List Action} {listeners : List (Option Remote)}
    {i : Nat} {s s' : PocDaemon} :
    Growing.forList (listenerBody platform transact transaction actions) listeners i s = .ok s' ↔
      (∀ (j : Nat) (target : Option Remote), listeners[j]? = some target →
        ¬ Action.StopsAt platform target (actions (i + j))) ∧
        sendAll transact (listenerCalls transaction actions listeners i) s = .ok s' := by
  induction listeners generalizing i s with
  | nil => simp [Growing.forList, listenerCalls, sendAll]
  | cons target rest ih =>
    rw [Growing.forList_cons, listenerCalls, sendAll_append]
    constructor
    · rintro ⟨s₁, hbody, hrest⟩
      obtain ⟨hfirst, hcalls⟩ := listenerBody_ok.1 hbody
      obtain ⟨hothers, hrest⟩ := ih.1 hrest
      refine ⟨fun j other hj => ?_, s₁, hcalls, hrest⟩
      cases j with
      | zero =>
        cases hj
        exact hfirst
      | succ j =>
        have := hothers j other hj
        rwa [Nat.add_right_comm] at this
    · rintro ⟨hstops, s₁, hcalls, hrest⟩
      refine ⟨s₁, listenerBody_ok.2 ⟨hstops 0 target rfl, hcalls⟩,
        ih.2 ⟨fun j other hj => ?_, hrest⟩⟩
      have := hstops (j + 1) other hj
      rwa [← Nat.add_assoc, Nat.add_right_comm] at this

/-- A round that ends has made the calls of its body to each entry of the registry it leaves, and
has ended the process at none of them. -/
theorem forListeners_sound {actions : Nat → List Action} (h : Grows transact) {fuel : Nat}
    {s s' : PocDaemon}
    (hrun : forListeners platform transact transaction actions fuel s = .ok s') :
    (∀ (j : Nat) (target : Option Remote), s'.listenerArray[j]? = some target →
      ¬ Action.StopsAt platform target (actions j)) ∧
      sendAll transact (listenerCalls transaction actions s'.listenerArray 0) s = .ok s' := by
  have hlist := Growing.forEntries_sound (listenerBody_appends h) hrun (Nat.zero_le _)
  simpa only [List.drop_zero, Nat.zero_add] using forList_listenerBody.1 hlist

/-- Over a registry that its calls leave as it is, a round ends if the calls do. -/
theorem forListeners_complete {actions : Nat → List Action} (h : Grows transact) {fuel : Nat}
    {s s' : PocDaemon} (hfuel : s.listenerArray.length < fuel)
    (hstops : ∀ (j : Nat) (target : Option Remote), s.listenerArray[j]? = some target →
      ¬ Action.StopsAt platform target (actions j))
    (hcalls : sendAll transact (listenerCalls transaction actions s.listenerArray 0) s = .ok s')
    (hsame : s'.listenerArray = s.listenerArray) :
    forListeners platform transact transaction actions fuel s = .ok s' := by
  refine Growing.forEntries_complete (listenerBody_appends h) fuel (Nat.zero_le _) hfuel ?_ hsame
  rw [List.drop_zero]
  refine forList_listenerBody.2 ⟨?_, hcalls⟩
  simpa only [Nat.zero_add] using hstops

/-! ## Transactions -/

/-- The loop body of a trigger. -/
def roundActions (lib : Library) : PocTransaction → Option (Nat → List Action)
  | .triggerChange => some (changeActions lib)
  | .triggerDeviceAdded => some (deviceAddedActions lib)
  | _ => none

/-- The loop body of a request, if it is a trigger. -/
def Request.round (lib : Library) (req : Request) : Option (Nat → List Action) :=
  req.method.bind (roundActions lib)

/-- What a request appends to the registry. -/
def Request.added (req : Request) : List (Option Remote) :=
  if req.method = some .addListener then [req.object] else []

/-- How a request ends the process outside the loops. -/
def Request.fault (lib : Library) (req : Request) : Option Fault :=
  if req.iface = none then some .nullInterface
  else if req.method = some .getString ∧ lib.variantError then some .gError
  else if req.method = some .getBundle ∧ lib.bundleIsNull then some .nullBundle
  else none

/-- The state of the daemon once a request has reached it. -/
def PocDaemon.enter (s : PocDaemon) : PocDaemon := { s with received := s.received + 1 }

/-- The registry after some more listeners. -/
def PocDaemon.add (s : PocDaemon) (listeners : List (Option Remote)) : PocDaemon :=
  { s with listenerArray := s.listenerArray ++ listeners }

@[simp] theorem PocDaemon.enter_listenerArray (s : PocDaemon) :
    s.enter.listenerArray = s.listenerArray := rfl

@[simp] theorem PocDaemon.enter_received (s : PocDaemon) : s.enter.received = s.received + 1 := rfl

@[simp] theorem PocDaemon.enter_sent (s : PocDaemon) : s.enter.sent = s.sent := rfl

@[simp] theorem PocDaemon.add_listenerArray (s : PocDaemon) (listeners : List (Option Remote)) :
    (s.add listeners).listenerArray = s.listenerArray ++ listeners := rfl

@[simp] theorem PocDaemon.add_received (s : PocDaemon) (listeners : List (Option Remote)) :
    (s.add listeners).received = s.received := rfl

@[simp] theorem PocDaemon.add_sent (s : PocDaemon) (listeners : List (Option Remote)) :
    (s.add listeners).sent = s.sent := rfl

@[simp] theorem PocDaemon.add_nil (s : PocDaemon) : s.add [] = s := by simp [PocDaemon.add]

/-- A method implies the interface of the service. -/
theorem Request.method_eq_some {req : Request} {method : PocTransaction}
    (h : req.method = some method) :
    req.iface = some serviceIface ∧ PocTransaction.ofCode req.code = some method := by
  rw [Request.method] at h
  split at h
  · exact ⟨‹_›, h⟩
  · cases h

theorem handleCallsCb_of_method {fuel : Nat} {req : Request} {s : PocDaemon}
    {method : PocTransaction} (h : req.method = some method) :
    handleCallsCb platform transact fuel req s =
      handleMethod platform transact fuel s.received req s.enter (some method) := by
  obtain ⟨hiface, hcode⟩ := Request.method_eq_some h
  simp [handleCallsCb, hiface, hcode, PocDaemon.enter]

theorem handleCallsCb_of_no_method {fuel : Nat} {req : Request} {s : PocDaemon}
    (hmethod : req.method = none) (hiface : req.iface ≠ none) :
    handleCallsCb platform transact fuel req s = .ok (noReply, s.enter) := by
  obtain ⟨iface, hiface⟩ := Option.ne_none_iff_exists'.1 hiface
  by_cases hservice : iface = serviceIface
  · have hcode : PocTransaction.ofCode req.code = none := by
      simpa [Request.method, hiface, hservice] using hmethod
    simp [handleCallsCb, hiface, hservice, hcode, handleMethod, PocDaemon.enter]
  · simp [handleCallsCb, hiface, hservice, PocDaemon.enter]

/-- The two triggers. -/
theorem Request.round_eq_some {lib : Library} {req : Request} {actions : Nat → List Action}
    (h : req.round lib = some actions) :
    req.method = some .triggerChange ∧ actions = changeActions lib ∨
      req.method = some .triggerDeviceAdded ∧ actions = deviceAddedActions lib := by
  obtain ⟨method, hmethod, hround⟩ := Option.bind_eq_some_iff.1 h
  cases method with
  | triggerChange => exact .inl ⟨hmethod, (Option.some.inj hround).symm⟩
  | triggerDeviceAdded => exact .inr ⟨hmethod, (Option.some.inj hround).symm⟩
  | _ => cases hround

/-- A trigger is its round. -/
theorem handleCallsCb_of_round {fuel : Nat} {req : Request} {s : PocDaemon}
    {actions : Nat → List Action}
    (h : req.round (platform.library s.received) = some actions) :
    handleCallsCb platform transact fuel req s =
      (forListeners platform transact s.received actions fuel s.enter).map
        fun s' => (noReply, s') := by
  rcases Request.round_eq_some h with ⟨hmethod, rfl⟩ | ⟨hmethod, rfl⟩
  · exact handleCallsCb_of_method hmethod
  · exact handleCallsCb_of_method hmethod

@[simp] theorem noReply_status : noReply.status = statusOk := rfl

@[simp] theorem replied_status (items : List Item) : (replied items).status = statusOk := rfl

@[simp] theorem repliedParcel_status (lib : Library) (items : List ParcelItem) :
    (repliedParcel lib items).status = statusOk := rfl

/-- Any other transaction ends the process as `Request.fault` says, or returns and appends what
`Request.added` says, and leaves `*status` as it was. -/
theorem handleCallsCb_of_no_round (transact : Transact) (fuel : Nat) {req : Request} {s : PocDaemon}
    (h : req.round (platform.library s.received) = none) :
    (∃ fault, req.fault (platform.library s.received) = some fault ∧
        handleCallsCb platform transact fuel req s = .error fault) ∨
      (req.fault (platform.library s.received) = none ∧
        ∃ answer, handleCallsCb platform transact fuel req s =
          .ok (answer, s.enter.add req.added) ∧ answer.status = statusOk) := by
  by_cases hiface : req.iface = none
  · refine .inl ⟨.nullInterface, by simp [Request.fault, hiface], ?_⟩
    simp [handleCallsCb, hiface]
  cases hmethod : req.method with
  | none =>
    refine .inr ⟨by simp [Request.fault, hiface, hmethod], noReply, ?_, rfl⟩
    rw [handleCallsCb_of_no_method hmethod hiface]
    simp [Request.added, hmethod]
  | some method =>
    rw [handleCallsCb_of_method hmethod]
    cases method with
    | triggerChange | triggerDeviceAdded => simp [Request.round, hmethod, roundActions] at h
    | getString =>
      by_cases herror : (platform.library s.received).variantError
      · exact .inl ⟨.gError, by simp [Request.fault, hiface, hmethod, herror],
          by simp [handleMethod, herror]⟩
      · refine .inr ⟨by simp [Request.fault, hiface, hmethod, herror], ?_⟩
        by_cases hmarshal : (platform.library s.received).marshal 0 = statusOk
        · simp [handleMethod, herror, hmarshal, Request.added, hmethod]
        · simp [handleMethod, herror, hmarshal, Request.added, hmethod]
    | getBundle =>
      by_cases hnull : (platform.library s.received).bundleIsNull
      · exact .inl ⟨.nullBundle, by simp [Request.fault, hiface, hmethod, hnull],
          by simp [handleMethod, hnull]⟩
      · exact .inr ⟨by simp [Request.fault, hiface, hmethod, hnull],
          by simp [handleMethod, hnull, Request.added, hmethod]⟩
    | addListener =>
      exact .inr ⟨by simp [Request.fault, hiface, hmethod],
        noReply, by simp [handleMethod, Request.added, hmethod, PocDaemon.add], rfl⟩
    | _ =>
      exact .inr ⟨by simp [Request.fault, hiface, hmethod],
        by simp [handleMethod, Request.added, hmethod]⟩

/-! ## Events -/

/-- The events of a method for each listener. -/
def PocTransaction.events : PocTransaction → List ListenerTransaction
  | .triggerChange => [.onChanged, .onParams, .onBundles]
  | .triggerDeviceAdded =>
    [.onDeviceAdded, .onDeviceAdded, .onDeviceAdded, .onDeepExample, .onDeepExample]
  | _ => []

/-- The events of a request for each listener. -/
def Request.events (req : Request) : List ListenerTransaction :=
  match req.method with
  | some method => method.events
  | none => []

/-- Who a call is to, and its event. -/
def Call.event (call : Call) : Option Remote × ListenerTransaction := (call.target, call.code)

/-- The deliveries a request asks for: its events, to each listener in turn. A NULL entry is no
listener. -/
def Request.deliveries (req : Request) (listeners : List (Option Remote)) :
    List (Option Remote × ListenerTransaction) :=
  (listeners.filter Option.isSome).flatMap fun listener => req.events.map (Prod.mk listener)

@[simp] theorem Request.deliveries_nil (req : Request) : req.deliveries [] = [] := rfl

@[simp] theorem Request.deliveries_cons_none (req : Request) (listeners : List (Option Remote)) :
    req.deliveries (none :: listeners) = req.deliveries listeners := rfl

@[simp] theorem Request.deliveries_cons_some (req : Request) (listener : Remote)
    (listeners : List (Option Remote)) :
    req.deliveries (some listener :: listeners) =
      req.events.map (Prod.mk (some listener)) ++ req.deliveries listeners := rfl

theorem Request.deliveries_of_no_events {req : Request} (h : req.events = [])
    (listeners : List (Option Remote)) : req.deliveries listeners = [] := by
  simp [Request.deliveries, h]

theorem Request.deliveries_append (req : Request) (listeners listeners' : List (Option Remote)) :
    req.deliveries (listeners ++ listeners') =
      req.deliveries listeners ++ req.deliveries listeners' := by
  simp [Request.deliveries]

/-- The deliveries to a registry without NULL. -/
theorem Request.deliveries_map_some (req : Request) (listeners : List Remote) :
    req.deliveries (listeners.map some) =
      listeners.flatMap fun listener => req.events.map (Prod.mk (some listener)) := by
  have hobjects : (listeners.map some).filter Option.isSome = listeners.map some :=
    List.filter_eq_self.2 (by simp)
  rw [Request.deliveries, hobjects, List.flatMap_map]

theorem Request.length_deliveries (req : Request) (listeners : List (Option Remote)) :
    (req.deliveries listeners).length =
      (listeners.filter Option.isSome).length * req.events.length := by
  simp [Request.deliveries, List.length_flatMap]

/-- A request without a loop has no events. -/
theorem Request.events_of_no_round {lib : Library} {req : Request} (h : req.round lib = none) :
    req.events = [] := by
  rw [Request.events]
  cases hmethod : req.method with
  | none => rfl
  | some method =>
    rw [Request.round, hmethod] at h
    cases method <;> first | rfl | cases h

/-- A request with a loop has events, and no effect but that of the loop. -/
theorem Request.of_round {lib : Library} {req : Request} {actions : Nat → List Action}
    (h : req.round lib = some actions) :
    req.events ≠ [] ∧ req.added = [] ∧ req.fault lib = none := by
  rcases Request.round_eq_some h with ⟨hmethod, rfl⟩ | ⟨hmethod, rfl⟩
  · have hiface := (Request.method_eq_some hmethod).1
    simp [Request.events, hmethod, PocTransaction.events, Request.added, Request.fault, hiface]
  · have hiface := (Request.method_eq_some hmethod).1
    simp [Request.events, hmethod, PocTransaction.events, Request.added, Request.fault, hiface]

/-- The calls of a loop body are those of its events. -/
theorem calls_of_round {lib : Library} {req : Request} {actions : Nat → List Action}
    (h : req.round lib = some actions) (transaction : Nat) (target : Option Remote) (i : Nat) :
    (Action.calls transaction target (actions i)).map Call.event = req.deliveries [target] := by
  cases target with
  | none =>
    rcases Request.round_eq_some h with ⟨-, rfl⟩ | ⟨-, rfl⟩
    · rfl
    · rfl
  | some listener =>
    rw [Request.deliveries_cons_some, Request.deliveries_nil, List.append_nil]
    rcases Request.round_eq_some h with ⟨hmethod, rfl⟩ | ⟨hmethod, rfl⟩
    · simp [Request.events, hmethod, PocTransaction.events, Action.calls, changeActions, Call.event]
    · simp [Request.events, hmethod, PocTransaction.events, Action.calls, deviceAddedActions,
        Call.event]

theorem transaction_of_mem_calls {transaction : Nat} {target : Option Remote} {call : Call} :
    ∀ {actions : List Action}, call ∈ Action.calls transaction target actions →
      call.transaction = transaction
  | [], h => by cases h
  | .free _ :: rest, h => @transaction_of_mem_calls _ _ _ rest h
  | .assign :: rest, h => @transaction_of_mem_calls _ _ _ rest h
  | .send _ _ :: rest, h => by
    rw [Action.calls] at h
    split at h
    · exact transaction_of_mem_calls h
    · rcases List.mem_cons.1 h with rfl | h
      · rfl
      · exact transaction_of_mem_calls h

/-- The calls of a round are the deliveries its request asks for. -/
theorem listenerCalls_of_round {lib : Library} {req : Request} {actions : Nat → List Action}
    (h : req.round lib = some actions) (transaction : Nat) :
    ∀ (listeners : List (Option Remote)) (i : Nat),
      (listenerCalls transaction actions listeners i).map Call.event = req.deliveries listeners
  | [], _ => rfl
  | target :: rest, i => by
    rw [listenerCalls, List.map_append, calls_of_round h, listenerCalls_of_round h transaction rest,
      ← Request.deliveries_append, List.singleton_append]

theorem transaction_of_mem_listenerCalls {actions : Nat → List Action} {call : Call} :
    ∀ {listeners : List (Option Remote)} {i : Nat},
      call ∈ listenerCalls transaction actions listeners i → call.transaction = transaction
  | [], _, h => by cases h
  | _ :: _, _, h => by
    rcases List.mem_append.1 h with h | h
    · exact transaction_of_mem_calls h
    · exact transaction_of_mem_listenerCalls h

/-! ## How a request ends the process -/

/-- A trigger ends the process at an entry of the registry. `TRIGGER_CHANGE` does so where the entry
and thus the client is NULL and libgbinder does not tolerate that. `TRIGGER_DEVICE_ADDED` does so in
any case where the entry is NULL, because it assigns to a struct that it has not got, and behind the
calls to any other entry where the second `free` of its buffer is noticed. -/
def Request.CrashesAt (platform : DaemonPlatform) (req : Request) (target : Option Remote) : Prop :=
  (req.method = some .triggerChange ∧ target = none ∧ ¬ platform.toleratesNullClient) ∨
    (req.method = some .triggerDeviceAdded ∧ (target = none ∨ platform.heapChecked))

/-- A request ends the process: by itself, or at an entry of the registry. -/
def Request.Crashes (platform : DaemonPlatform) (lib : Library) (listeners : List (Option Remote))
    (req : Request) : Prop :=
  req.fault lib ≠ none ∨ ∃ target ∈ listeners, req.CrashesAt platform target

/-- A request that is no trigger ends the process at no entry. -/
theorem Request.not_crashesAt_of_no_events {req : Request} (h : req.events = [])
    (target : Option Remote) : ¬ req.CrashesAt platform target := by
  rintro (⟨hmethod, -⟩ | ⟨hmethod, -⟩)
  · simp [Request.events, hmethod, PocTransaction.events] at h
  · simp [Request.events, hmethod, PocTransaction.events] at h

/-- The loop bodies end the process where `CrashesAt` says. -/
theorem stopsAt_of_round {lib : Library} {req : Request} {actions : Nat → List Action}
    (h : req.round lib = some actions) (target : Option Remote) (i : Nat) :
    Action.StopsAt platform target (actions i) ↔ req.CrashesAt platform target := by
  rcases Request.round_eq_some h with ⟨hmethod, rfl⟩ | ⟨hmethod, rfl⟩
  · simp [Action.StopsAt, Action.Stop, Action.assigns, Action.freesTwice, changeActions,
      Request.CrashesAt, hmethod]
  · simp only [Action.StopsAt, Action.Stop, Action.assigns, Action.freesTwice, deviceAddedActions,
      Request.CrashesAt, hmethod]
    by_cases hnull : target = none
    · simp [hnull]
    · simp [hnull]

/-- The conditions under which a round goes through its registry, in terms of its request. -/
theorem not_crashes_of_round {lib : Library} {req : Request} {actions : Nat → List Action}
    {listeners : List (Option Remote)} (h : req.round lib = some actions) :
    ¬ req.Crashes platform lib listeners ↔
      ∀ (j : Nat) (target : Option Remote), listeners[j]? = some target →
        ¬ Action.StopsAt platform target (actions j) := by
  simp only [stopsAt_of_round h]
  constructor
  · intro hquiet j target hj hcrash
    exact hquiet (.inr ⟨target, List.mem_of_getElem? hj, hcrash⟩)
  · rintro hquiet (hfault | ⟨target, hmem, hcrash⟩)
    · exact hfault (Request.of_round h).2.2
    · obtain ⟨j, hj⟩ := List.mem_iff_getElem?.1 hmem
      exact hquiet j target hj hcrash

/-- A request that is no trigger ends the process only by itself. -/
theorem not_crashes_of_no_round {lib : Library} {req : Request} {listeners : List (Option Remote)}
    (h : req.round lib = none) :
    ¬ req.Crashes platform lib listeners ↔ req.fault lib = none := by
  rw [Request.Crashes, not_or, not_not]
  refine and_iff_left ?_
  rintro ⟨target, -, hcrash⟩
  exact Request.not_crashesAt_of_no_events (Request.events_of_no_round h) target hcrash

/-! ## What a transaction does -/

/-- The calls a request asks for, over a registry. -/
def Request.calls (lib : Library) (transaction : Nat) (listeners : List (Option Remote))
    (req : Request) : List Call :=
  match req.round lib with
  | some actions => listenerCalls transaction actions listeners 0
  | none => []

theorem Request.calls_of_round {lib : Library} {req : Request} {actions : Nat → List Action}
    (h : req.round lib = some actions) (listeners : List (Option Remote)) :
    req.calls lib transaction listeners = listenerCalls transaction actions listeners 0 := by
  rw [Request.calls, h]

theorem Request.calls_of_no_round {lib : Library} {req : Request} (h : req.round lib = none)
    (listeners : List (Option Remote)) : req.calls lib transaction listeners = [] := by
  rw [Request.calls, h]

/-- They are the deliveries the request asks for. -/
theorem Request.event_calls (lib : Library) (transaction : Nat) (listeners : List (Option Remote))
    (req : Request) :
    (req.calls lib transaction listeners).map Call.event = req.deliveries listeners := by
  cases hround : req.round lib with
  | none =>
    rw [Request.calls_of_no_round hround]
    simp [Request.deliveries, Request.events_of_no_round hround]
  | some actions =>
    rw [Request.calls_of_round hround]
    exact listenerCalls_of_round hround transaction listeners 0

theorem Request.length_calls (lib : Library) (transaction : Nat)
    (listeners : List (Option Remote)) (req : Request) :
    (req.deliveries listeners).length = (req.calls lib transaction listeners).length := by
  rw [← Request.event_calls lib transaction, List.length_map]

/-- They carry the number of the transaction. -/
theorem Request.transaction_of_mem_calls {lib : Library} {listeners : List (Option Remote)}
    {req : Request} {call : Call} (h : call ∈ req.calls lib transaction listeners) :
    call.transaction = transaction := by
  cases hround : req.round lib with
  | none =>
    rw [Request.calls_of_no_round hround] at h
    cases h
  | some actions =>
    rw [Request.calls_of_round hround] at h
    exact transaction_of_mem_listenerCalls h

/-- A transaction that returns has made the calls its request asks for over the registry it leaves,
has appended what the request adds, and has left `*status` as it was. -/
theorem handleCallsCb_sound (h : Grows transact) {fuel : Nat} {req : Request} {s s' : PocDaemon}
    {answer : Answer} (hrun : handleCallsCb platform transact fuel req s = .ok (answer, s')) :
    answer.status = statusOk ∧
      ¬ req.Crashes platform (platform.library s.received) s'.listenerArray ∧
      ∃ s₁, sendAll transact
          (req.calls (platform.library s.received) s.received s'.listenerArray) s.enter = .ok s₁ ∧
        s' = s₁.add req.added := by
  cases hround : req.round (platform.library s.received) with
  | none =>
    rw [not_crashes_of_no_round hround, Request.calls_of_no_round hround]
    rcases handleCallsCb_of_no_round transact fuel hround with
      ⟨fault, -, hrun'⟩ | ⟨hfault, answer', hrun', hstatus⟩
    · cases hrun.symm.trans hrun'
    · cases hrun.symm.trans hrun'
      exact ⟨hstatus, hfault, s.enter, rfl, rfl⟩
  | some actions =>
    rw [not_crashes_of_round hround, Request.calls_of_round hround]
    rw [handleCallsCb_of_round hround] at hrun
    cases hloop : forListeners platform transact s.received actions fuel s.enter with
    | error fault =>
      rw [hloop] at hrun
      cases hrun
    | ok s₁ =>
      rw [hloop] at hrun
      cases hrun
      obtain ⟨hstops, hcalls⟩ := forListeners_sound h hloop
      refine ⟨rfl, hstops, s', hcalls, ?_⟩
      rw [(Request.of_round hround).2.1, PocDaemon.add_nil]

/-- A transaction returns if it does not end the process and its calls return, leaving the registry
as it is. -/
theorem handleCallsCb_complete (h : Grows transact) {fuel : Nat} {req : Request}
    {s s₁ : PocDaemon} (hfuel : s.listenerArray.length < fuel)
    (hcrash : ¬ req.Crashes platform (platform.library s.received) s.listenerArray)
    (hcalls : sendAll transact
      (req.calls (platform.library s.received) s.received s.listenerArray) s.enter = .ok s₁)
    (hsame : s₁.listenerArray = s.listenerArray) :
    ∃ answer, handleCallsCb platform transact fuel req s = .ok (answer, s₁.add req.added) := by
  cases hround : req.round (platform.library s.received) with
  | none =>
    rw [Request.calls_of_no_round hround] at hcalls
    cases hcalls
    rcases handleCallsCb_of_no_round transact fuel hround with
      ⟨fault, hfault, -⟩ | ⟨-, answer, hrun, -⟩
    · cases hfault.symm.trans ((not_crashes_of_no_round hround).1 hcrash)
    · exact ⟨answer, hrun⟩
  | some actions =>
    rw [Request.calls_of_round hround] at hcalls
    have hstops := (not_crashes_of_round hround).1 hcrash
    have hloop := forListeners_complete (s := s.enter) h hfuel hstops hcalls hsame
    refine ⟨noReply, ?_⟩
    rw [handleCallsCb_of_round hround, hloop, (Request.of_round hround).2.1, PocDaemon.add_nil]
    rfl

theorem handleCallsCb_of_fault {fuel : Nat} {req : Request} {s : PocDaemon} {fault : Fault}
    (h : req.fault (platform.library s.received) = some fault) :
    handleCallsCb platform transact fuel req s = .error fault := by
  cases hround : req.round (platform.library s.received) with
  | none =>
    rcases handleCallsCb_of_no_round transact fuel hround with
      ⟨fault', hfault', hrun⟩ | ⟨hfault, -⟩
    · cases h.symm.trans hfault'
      exact hrun
    · cases h.symm.trans hfault
  | some actions => cases h.symm.trans (Request.of_round hround).2.2

end FwupdPoc
