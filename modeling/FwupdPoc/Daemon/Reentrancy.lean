import FwupdPoc.Daemon.Course

/-!
# Re-entrant listeners

While the daemon waits for the reply of a listener, further transactions may reach the handler.
Since the loops over the listeners read the length of the registry anew for each entry, a listener
that is added during a round receives that round: whatever a trigger returns with, its own calls are
the deliveries to the registry it leaves (`handle_extends`).

A round therefore delivers to the registry it arrived at exactly where it comes to an end by a
course in which no request adds an object (`trigger_roundDelivers_iff`). If one that it calls is
added during each of its calls, it never returns (`handle_ne_ok_of_adds`).
-/

namespace FwupdPoc

variable {platform : DaemonPlatform} {nested : Nat → List Request}
  {answer : Request → PocDaemon → Except Fault (Answer × PocDaemon)}

/-! ## What happens between two states -/

/-- The registry and the calls have grown, the latter by `new`, made for transactions numbered from
`transaction` on. -/
structure Extends (transaction : Nat) (s s' : PocDaemon) (new : List (Call × Int)) : Prop where
  listenerArray : s.listenerArray <+: s'.listenerArray
  received : s.received ≤ s'.received
  sent : s'.sent = s.sent ++ new
  number : ∀ call ∈ new, transaction ≤ call.1.transaction

theorem Extends.refl (transaction : Nat) (s : PocDaemon) : Extends transaction s s [] :=
  ⟨List.prefix_refl _, Nat.le_refl _, by simp, by simp⟩

theorem Extends.trans {transaction : Nat} {s s₁ s' : PocDaemon} {new new' : List (Call × Int)}
    (h : Extends transaction s s₁ new) (h' : Extends transaction s₁ s' new') :
    Extends transaction s s' (new ++ new') := by
  refine ⟨h.listenerArray.trans h'.listenerArray, Nat.le_trans h.received h'.received, ?_, ?_⟩
  · rw [h'.sent, h.sent, List.append_assoc]
  · intro call hcall
    rcases List.mem_append.1 hcall with hcall | hcall
    · exact h.number call hcall
    · exact h'.number call hcall

theorem Extends.weaken {transaction transaction' : Nat} {s s' : PocDaemon}
    {new : List (Call × Int)} (h : Extends transaction s s' new)
    (hle : transaction' ≤ transaction) : Extends transaction' s s' new :=
  ⟨h.listenerArray, h.received, h.sent, fun call hcall => Nat.le_trans hle (h.number call hcall)⟩

/-- The calls made for a transaction. -/
def ownCalls (transaction : Nat) (calls : List (Call × Int)) : List Call :=
  (calls.map Prod.fst).filter fun call => call.transaction = transaction

theorem ownCalls_append (transaction : Nat) (calls calls' : List (Call × Int)) :
    ownCalls transaction (calls ++ calls') =
      ownCalls transaction calls ++ ownCalls transaction calls' := by
  simp [ownCalls]

/-- None of the calls made for other transactions are its own. -/
theorem ownCalls_of_others {transaction : Nat} {calls : List (Call × Int)}
    (h : ∀ call ∈ calls, call.1.transaction ≠ transaction) : ownCalls transaction calls = [] := by
  rw [ownCalls, List.filter_eq_nil_iff]
  intro call hcall
  obtain ⟨entry, hentry, rfl⟩ := List.mem_map.1 hcall
  rw [decide_eq_true_eq]
  exact h entry hentry

/-- Handling a request extends the state with calls for it and for later transactions. -/
def AnswersExtend (answer : Request → PocDaemon → Except Fault (Answer × PocDaemon)) : Prop :=
  ∀ req s reply s', answer req s = .ok (reply, s') → ∃ new, Extends s.received s s' new

theorem answerAll_extends (h : AnswersExtend answer) :
    ∀ {reqs : List Request} {s s' : PocDaemon}, answerAll answer reqs s = .ok s' →
      ∃ new, Extends s.received s s' new
  | [], s, s', hrun => by
    cases hrun
    exact ⟨[], Extends.refl _ s⟩
  | req :: rest, s, s', hrun => by
    obtain ⟨reply, s₁, hreq, hrest⟩ := answerAll_cons.1 hrun
    obtain ⟨new, hnew⟩ := h req s reply s₁ hreq
    obtain ⟨new', hnew'⟩ := answerAll_extends h hrest
    exact ⟨new ++ new', hnew.trans (hnew'.weaken hnew.received)⟩

theorem transactSyncReply_grows (platform : DaemonPlatform) (nested : Nat → List Request)
    (h : AnswersExtend answer) :
    Grows (transactSyncReply platform nested answer) := by
  intro call s s' hrun
  obtain ⟨new, hnew⟩ := answerAll_extends h hrun
  exact hnew.listenerArray

/-- The calls of a round are its own among those made while it runs. -/
theorem sendAll_extends (h : AnswersExtend answer) {transaction : Nat} :
    ∀ {calls : List Call} {s s' : PocDaemon},
      sendAll (transactSyncReply platform nested answer) calls s = .ok s' →
      (∀ call ∈ calls, call.transaction = transaction) → transaction < s.received →
      ∃ new, Extends transaction s s' new ∧ ownCalls transaction new = calls
  | [], s, s', hrun, _, _ => by
    cases hrun
    exact ⟨[], Extends.refl _ s, rfl⟩
  | call :: rest, s, s', hrun, hcalls, hreceived => by
    obtain ⟨s₁, hcall, hrest⟩ := sendAll_cons.1 hrun
    obtain ⟨new, hnew⟩ := answerAll_extends h hcall
    have hown : call.transaction = transaction := hcalls call List.mem_cons_self
    have hlater : ownCalls transaction new = [] := ownCalls_of_others fun entry hentry =>
      Nat.ne_of_gt (Nat.lt_of_lt_of_le hreceived (hnew.number entry hentry))
    have hreceived₁ : transaction < s₁.received := Nat.lt_of_lt_of_le hreceived hnew.received
    obtain ⟨new', hnew', hown'⟩ := sendAll_extends h hrest
      (fun c hc => hcalls c (List.mem_cons_of_mem _ hc)) hreceived₁
    have hfirst : Extends transaction s s₁ ((call, platform.status s.sent.length) :: new) := by
      refine ⟨hnew.listenerArray, hnew.received, ?_, ?_⟩
      · rw [hnew.sent, List.append_assoc, List.singleton_append]
      · intro entry hentry
        rcases List.mem_cons.1 hentry with rfl | hentry
        · exact hown.ge
        · exact Nat.le_trans (Nat.le_of_lt hreceived) (hnew.number entry hentry)
    refine ⟨_, hfirst.trans hnew', ?_⟩
    rw [ownCalls_append, hown', ← List.singleton_append, ownCalls_append, hlater]
    simp [ownCalls, hown]

/-- A transaction extends the state, and its own deliveries are those to the registry it leaves. -/
theorem handle_extends : ∀ {fuel : Nat} {req : Request} {s s' : PocDaemon} {reply : Answer},
    handle platform nested fuel req s = .ok (reply, s') →
    ∃ new, Extends s.received s s' new ∧
      (ownCalls s.received new).map Call.event = req.deliveries s'.listenerArray
  | 0, req, s, s', reply, hrun => by cases hrun
  | fuel + 1, req, s, s', reply, hrun => by
    have hanswer : AnswersExtend fun req s => handle platform nested fuel req s := by
      intro req s reply s' hrun
      obtain ⟨new, hnew, -⟩ := handle_extends hrun
      exact ⟨new, hnew⟩
    have hgrows := transactSyncReply_grows platform nested hanswer
    obtain ⟨-, -, s₁, hcalls, rfl⟩ := handleCallsCb_sound hgrows hrun
    obtain ⟨new, hnew, hown⟩ := sendAll_extends hanswer hcalls
      (fun call hcall => Request.transaction_of_mem_calls hcall) (Nat.lt_succ_self _)
    refine ⟨new, ⟨?_, ?_, hnew.sent, hnew.number⟩, ?_⟩
    · exact hnew.listenerArray.trans (List.prefix_append _ _)
    · exact Nat.le_of_succ_le hnew.received
    · rw [hown, Request.event_calls]

theorem handle_answersExtend (platform : DaemonPlatform) (nested : Nat → List Request)
    (fuel : Nat) :
    AnswersExtend fun req s => handle platform nested fuel req s := by
  intro req s reply s' hrun
  obtain ⟨new, hnew, -⟩ := handle_extends hrun
  exact ⟨new, hnew⟩

/-! ## Delivery -/

/-- The deliveries of the transaction that arrived in the first state, up to the second. -/
def PocDaemon.delivered (s s' : PocDaemon) : List (Option Remote × ListenerTransaction) :=
  (ownCalls s.received (s'.sent.drop s.sent.length)).map Call.event

/-- A transaction returns, and has made the deliveries it asks for over the registry it arrived at,
and no others. -/
def RoundDelivers (platform : DaemonPlatform) (nested : Nat → List Request) (req : Request)
    (s : PocDaemon) : Prop :=
  ∃ fuel reply s', handle platform nested fuel req s = .ok (reply, s') ∧
    s.delivered s' = req.deliveries s.listenerArray

/-- The deliveries of a transaction that returns are those to the registry it leaves. -/
theorem delivered_of_handle {fuel : Nat} {req : Request} {s s' : PocDaemon} {reply : Answer}
    (hrun : handle platform nested fuel req s = .ok (reply, s')) :
    s.delivered s' = req.deliveries s'.listenerArray := by
  obtain ⟨new, hnew, hown⟩ := handle_extends hrun
  rw [PocDaemon.delivered, hnew.sent, List.drop_left]
  exact hown

/-- A trigger delivers as it should if and only if it comes to an end by a course in which no
request adds an object. -/
theorem roundDelivers_iff_finishes {req : Request} (hevents : req.events ≠ []) (s : PocDaemon) :
    RoundDelivers platform nested req s ↔
      ∃ o', Finishes platform nested Request.AddsNoObject (.requests [req]) s.outline o' := by
  refine ⟨fun ⟨fuel, reply, s', hrun, hdelivered⟩ => ?_, fun ⟨o', hcourse⟩ => ?_⟩
  · have hone : answerAll (fun req s => handle platform nested fuel req s) [req] s = .ok s' :=
      answerAll_cons.2 ⟨reply, s', hrun, rfl⟩
    have hcourse := answerAll_finishes (handle_finishes fuel) hone
    have hlength := congrArg List.length ((delivered_of_handle hrun).symm.trans hdelivered)
    rw [Request.length_deliveries, Request.length_deliveries] at hlength
    have hsame : s'.outline.objects = s.outline.objects :=
      (hcourse.objects_grow.eq_of_length
        (Nat.eq_of_mul_eq_mul_right (List.length_pos_iff.2 hevents) hlength).symm).symm
    exact ⟨_, hcourse.adds_no_object hsame⟩
  · have hsame : o'.objects = s.outline.objects := hcourse.objects_eq
    obtain ⟨s', bound, rfl, hrun⟩ := (hcourse.mono fun _ _ => trivial).completes s rfl
    obtain ⟨reply, s₁, hreq, hnone⟩ := answerAll_cons.1 (hrun bound (Nat.le_refl _))
    cases hnone
    have hdeliveries : req.deliveries s'.listenerArray = req.deliveries s.listenerArray :=
      congrArg (List.flatMap fun listener => req.events.map (Prod.mk listener)) hsame
    exact ⟨bound, reply, s', hreq, (delivered_of_handle hreq).trans hdeliveries⟩

/-- `TRIGGER_CHANGE` and `TRIGGER_DEVICE_ADDED` return with their events delivered to the listeners
that were registered when they arrived, and to no others, if and only if they come to an end with
all that arrives meanwhile, and none of this adds an object or ends the process. -/
theorem trigger_roundDelivers_iff {req : Request}
    (htrigger : req.method = some .triggerChange ∨ req.method = some .triggerDeviceAdded)
    (s : PocDaemon) :
    RoundDelivers platform nested req s ↔
      ∃ o', Finishes platform nested Request.AddsNoObject (.requests [req]) s.outline o' := by
  have hevents : req.events ≠ [] := by
    rcases htrigger with hmethod | hmethod
    · simp [Request.events, hmethod, PocTransaction.events]
    · simp [Request.events, hmethod, PocTransaction.events]
  exact roundDelivers_iff_finishes hevents s

/-- The request `TRIGGER_CHANGE`. -/
def triggerChangeRequest : Request := ⟨some serviceIface, 18, none, none, none⟩

/-- The request `ADD_LISTENER`. -/
def addListenerRequest (object : Remote) : Request :=
  ⟨some serviceIface, 16, none, none, some object⟩

/-- The request `GET_INT`. -/
def getIntRequest : Request := ⟨some serviceIface, 7, none, none, none⟩

theorem triggerChangeRequest_method : triggerChangeRequest.method = some .triggerChange := by
  simp [triggerChangeRequest, Request.method, PocTransaction.ofCode]

theorem triggerChangeRequest_events :
    triggerChangeRequest.events = [.onChanged, .onParams, .onBundles] := by
  rw [Request.events, triggerChangeRequest_method]
  rfl

/-- Listener 1 asks for the number from its `onChanged`. -/
theorem trigger_roundDelivers_iff_getInt :
    RoundDelivers reliablePlatform (fun n => if n = 0 then [getIntRequest] else [])
      triggerChangeRequest ⟨[some 1], 1, []⟩ := by
  have hadds : triggerChangeRequest.AddsNoObject ∧ getIntRequest.AddsNoObject :=
    ⟨fun _ => List.not_mem_nil, fun _ => List.not_mem_nil⟩
  have hlistener : ¬ triggerChangeRequest.CrashesAt reliablePlatform (some 1) := by
    simp [Request.CrashesAt, triggerChangeRequest_method]
  -- `GET_INT` arrives during the first of the three calls
  have hcalls : Finishes reliablePlatform (fun n => if n = 0 then [getIntRequest] else [])
      Request.AddsNoObject (.calls 3) ⟨[some 1], 0, 2⟩ ⟨[some 1], 3, 3⟩ :=
    .call (.request hadds.2 rfl (.round_of_no_events rfl 0 _) .noRequests)
      (.call .noRequests (.call .noRequests .noCalls))
  have hround : Finishes reliablePlatform (fun n => if n = 0 then [getIntRequest] else [])
      Request.AddsNoObject (.round triggerChangeRequest 0) ⟨[some 1], 0, 2⟩ ⟨[some 1], 3, 3⟩ :=
    .entry rfl hlistener hcalls (.roundEnds (Nat.le_refl 1))
  exact (trigger_roundDelivers_iff (.inl triggerChangeRequest_method) _).2
    ⟨⟨[some 1], 3, 3⟩, .request hadds.1 rfl hround .noRequests⟩

/-- Listener 1 adds listener 2 from its `onChanged`. -/
theorem addedDuringRound_not_roundDelivers :
    ¬ RoundDelivers reliablePlatform (fun n => if n = 0 then [addListenerRequest 2] else [])
      triggerChangeRequest ⟨[some 1], 1, []⟩ := by
  rw [roundDelivers_iff_finishes (by simp [triggerChangeRequest_events])]
  rintro ⟨o', hcourse⟩
  obtain ⟨-, -, o₁, hround, -⟩ := hcourse.of_request
  have hentry : ([some 1] : List (Option Remote))[0]? = some (some 1) := rfl
  obtain ⟨-, o₂, hcalls, -⟩ := hround.of_round hentry
  rw [Request.length_deliveries, triggerChangeRequest_events] at hcalls
  obtain ⟨o₃, hnested, -⟩ := hcalls.of_call
  obtain ⟨hadds, -⟩ := Finishes.of_request hnested
  exact hadds 2 (List.mem_singleton.2 rfl)

/-! ## Rounds that never end -/

/-- A round of `TRIGGER_CHANGE` passes over an entry without a call. -/
def DaemonPlatform.PassesOver (platform : DaemonPlatform) (entry : Option Remote) : Prop :=
  platform.toleratesNullClient ∧ entry = none

instance (platform : DaemonPlatform) (entry : Option Remote) :
    Decidable (platform.PassesOver entry) := inferInstanceAs (Decidable (_ ∧ _))

/-- The entries of a registry that a round does not pass over. -/
def DaemonPlatform.heeded (platform : DaemonPlatform) (listeners : List (Option Remote)) :
    List (Option Remote) := listeners.filter fun entry => ¬ platform.PassesOver entry

theorem DaemonPlatform.heeded_append (platform : DaemonPlatform)
    (listeners listeners' : List (Option Remote)) :
    platform.heeded (listeners ++ listeners') =
      platform.heeded listeners ++ platform.heeded listeners' := List.filter_append ..

theorem DaemonPlatform.heeded_length_pos {listeners : List (Option Remote)}
    (h : ∃ entry ∈ listeners, ¬ platform.PassesOver entry) :
    0 < (platform.heeded listeners).length := by
  obtain ⟨entry, hentry, hheeded⟩ := h
  exact List.length_pos_of_mem (List.mem_filter.2 ⟨hentry, decide_eq_true hheeded⟩)

/-- Over a registry at which it does not end the process, a trigger heeds the objects. -/
theorem Request.heeded_eq {lib : Library} {req : Request} {listeners : List (Option Remote)}
    (hevents : req.events ≠ []) (hcrash : ¬ req.Crashes platform lib listeners) :
    platform.heeded listeners = listeners.filter Option.isSome := by
  refine List.filter_congr fun entry hentry => ?_
  cases entry with
  | some object => simp [DaemonPlatform.PassesOver]
  | none =>
    have htolerates : platform.toleratesNullClient := by
      by_contra hnot
      refine hcrash (.inr ⟨none, hentry, ?_⟩)
      cases hround : req.round lib with
      | none => exact absurd (Request.events_of_no_round hround) hevents
      | some actions => exact (stopsAt_of_round hround none 0).1 (.inl ⟨rfl, hnot⟩)
    simp [DaemonPlatform.PassesOver, htolerates]

/-- What is heeded of what a request adds stays in the registry. -/
theorem handle_added {fuel : Nat} {req : Request} {s s' : PocDaemon} {reply : Answer}
    (hrun : handle platform nested fuel req s = .ok (reply, s')) :
    (platform.heeded s.listenerArray).length + (platform.heeded req.added).length ≤
      (platform.heeded s'.listenerArray).length := by
  cases fuel with
  | zero => cases hrun
  | succ fuel =>
    have hanswer := handle_answersExtend platform nested fuel
    have hgrows := transactSyncReply_grows platform nested hanswer
    obtain ⟨-, -, s₁, hcalls, rfl⟩ := handleCallsCb_sound hgrows hrun
    have hlength := ((sendAll_grows (s := s.enter) hgrows hcalls).filter
      fun entry => ¬ platform.PassesOver entry).length_le
    rw [PocDaemon.add_listenerArray, DaemonPlatform.heeded_append, List.length_append]
    exact Nat.add_le_add_right hlength _

theorem answerAll_added {fuel : Nat} {req : Request} :
    ∀ {reqs : List Request} {s s' : PocDaemon},
      answerAll (fun req s => handle platform nested fuel req s) reqs s = .ok s' → req ∈ reqs →
      (platform.heeded s.listenerArray).length + (platform.heeded req.added).length ≤
        (platform.heeded s'.listenerArray).length
  | [], _, _, _, hreq => by cases hreq
  | first :: rest, s, s', hrun, hreq => by
    obtain ⟨reply, s₁, hfirst, hrest⟩ := answerAll_cons.1 hrun
    have hadded := handle_added hfirst
    rcases List.mem_cons.1 hreq with rfl | hreq
    · obtain ⟨new, hnew⟩ := answerAll_extends (handle_answersExtend platform nested fuel) hrest
      have hlength : (platform.heeded s₁.listenerArray).length ≤
          (platform.heeded s'.listenerArray).length := (hnew.listenerArray.filter _).length_le
      omega
    · have := answerAll_added hrest hreq
      omega

/-- If an entry that is heeded is added during every call, there are as many more of these as there
are calls. -/
theorem sendAll_added {fuel : Nat}
    (hadds : ∀ n, ∃ req ∈ nested n, ∃ entry ∈ req.added, ¬ platform.PassesOver entry) :
    ∀ {calls : List Call} {s s' : PocDaemon},
      sendAll (transactSyncReply platform nested fun req s => handle platform nested fuel req s)
        calls s = .ok s' →
      (platform.heeded s.listenerArray).length + calls.length ≤
        (platform.heeded s'.listenerArray).length
  | [], s, s', hrun => by
    cases hrun
    exact Nat.le_refl _
  | call :: rest, s, s', hrun => by
    obtain ⟨s₁, hcall, hrest⟩ := sendAll_cons.1 hrun
    obtain ⟨req, hreq, hadded⟩ := hadds s.sent.length
    have hone := DaemonPlatform.heeded_length_pos hadded
    have hfirst := answerAll_added hcall hreq
    have hothers := sendAll_added hadds hrest
    rw [List.length_cons]
    dsimp only at hfirst
    omega

/-- A round during each of whose calls a listener is added does not return. -/
theorem handle_ne_ok_of_adds {req : Request} {s : PocDaemon} (hevents : req.events ≠ [])
    (hregistry : ∃ entry ∈ s.listenerArray, ¬ platform.PassesOver entry)
    (hadds : ∀ n, ∃ req ∈ nested n, ∃ entry ∈ req.added, ¬ platform.PassesOver entry)
    (fuel : Nat) (reply : Answer) (s' : PocDaemon) :
    handle platform nested fuel req s ≠ .ok (reply, s') := by
  intro hrun
  cases fuel with
  | zero => cases hrun
  | succ fuel =>
    have hanswer := handle_answersExtend platform nested fuel
    have hgrows := transactSyncReply_grows platform nested hanswer
    obtain ⟨-, hcrash, s₁, hcalls, rfl⟩ := handleCallsCb_sound hgrows hrun
    have hlength := sendAll_added hadds hcalls
    have hevents₁ : 0 < req.events.length := List.length_pos_iff.2 hevents
    have hregistry : 0 < (platform.heeded s.listenerArray).length :=
      DaemonPlatform.heeded_length_pos hregistry
    -- each of the listeners it leaves has had a call, during which a listener was added
    rw [← Request.length_calls, Request.length_deliveries, ← Request.heeded_eq hevents hcrash,
      PocDaemon.enter_listenerArray, PocDaemon.add_listenerArray, DaemonPlatform.heeded_append,
      List.length_append] at hlength
    have hcalls_le := Nat.le_mul_of_pos_right
      ((platform.heeded s₁.listenerArray).length + (platform.heeded req.added).length) hevents₁
    omega

/-- Listener 2 is added during every call. -/
theorem handle_ne_ok_of_adds_always :
    ¬ ∃ fuel reply s', handle reliablePlatform (fun _ => [addListenerRequest 2]) fuel
      triggerChangeRequest ⟨[some 1], 1, []⟩ = .ok (reply, s') := by
  rintro ⟨fuel, reply, s', hrun⟩
  have hevents : triggerChangeRequest.events ≠ [] := by simp [triggerChangeRequest_events]
  have hadds : ∀ _ : Nat, ∃ req ∈ [addListenerRequest 2],
      ∃ entry ∈ req.added, ¬ reliablePlatform.PassesOver entry :=
    fun _ => ⟨_, List.mem_cons_self, some 2, List.mem_singleton.2 rfl, by decide⟩
  exact handle_ne_ok_of_adds hevents ⟨some 1, List.mem_cons_self, by decide⟩ hadds fuel reply s'
    hrun

end FwupdPoc
