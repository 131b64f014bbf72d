import FwupdPoc.MainService

/-!
# What the triggers of `MainService` have called

Whatever happens during the callbacks, a trigger ends, and what it has called then is an initial
part of its round: the sequence of events for each entry of the list as it was, in order. Only the
last call can have thrown (`notify_calls_initial`). So a listener that throws at its first call cuts
off all listeners behind it, and since nothing takes it off the list (`removeListener` is empty), it
cuts them off in every trigger to come (`deadListener_silences`).
-/

namespace FwupdPoc

open FailFast

section Service

variable (react : Nat → Reaction)

/-! ## One listener -/

/-- The calls with the events for one entry, if all return. -/
def entryCalls (entry : Nat) (listener : Listener) (events : List ListenerEvent) :
    List ListenerCall :=
  events.map fun event => ⟨entry, listener, event, false⟩

/-- How the calls for one entry end: all have returned, or the last one that was made has thrown. -/
inductive Delivered (entry : Nat) (listener : Listener) (events : List ListenerEvent) :
    Option ProxyException → List ListenerCall → Prop
  | all : Delivered entry listener events none (entryCalls entry listener events)
  | threw (front rest : List ListenerEvent) (event : ListenerEvent) (e : ProxyException)
      (h : events = front ++ event :: rest) :
    Delivered entry listener events (some e)
      (entryCalls entry listener front ++ [⟨entry, listener, event, true⟩])

/-- The calls for one entry. -/
theorem deliver_calls (entry : Nat) (listener : Listener) :
    ∀ (events : List ListenerEvent) (s : MainService), ∃ exception s' made,
      deliver react entry listener events s = (exception, s') ∧ s'.calls = s.calls ++ made ∧
        Delivered entry listener events exception made
  | [], s => ⟨none, s, [], rfl, (List.append_nil _).symm, .all⟩
  | event :: rest, s => by
    cases hthrows : (react s.calls.length).throws with
    | true =>
      refine ⟨some .remoteException, (callListener react entry listener event s).2,
        [⟨entry, listener, event, true⟩], ?_, ?_, .threw [] rest event .remoteException rfl⟩
      · have hcall : callListener react entry listener event s =
            (some .remoteException, (callListener react entry listener event s).2) := by
          simp [callListener, hthrows]
        rw [deliver, hcall]
      · rw [callListener, hthrows]
    | false =>
      obtain ⟨exception, s', made, hrun, hcalls, hmade⟩ :=
        deliver_calls entry listener rest (callListener react entry listener event s).2
      refine ⟨exception, s', ⟨entry, listener, event, false⟩ :: made, ?_, ?_, ?_⟩
      · rw [deliver]
        have hcall : callListener react entry listener event s =
            (none, (callListener react entry listener event s).2) := by
          simp [callListener, hthrows]
        rw [hcall]
        exact hrun
      · rw [hcalls, callListener, hthrows, List.append_assoc]
        rfl
      · cases hmade with
        | all => exact .all
        | threw front rest' event' e h =>
          exact .threw (event :: front) rest' event' e (by rw [h]; rfl)

/-! ## One trigger -/

/-- The call without its outcome. -/
def ListenerCall.planned (call : ListenerCall) : ListenerCall := { call with threw := false }

/-- Calls that are an initial part of a round, and have returned up to the last one. -/
structure PartOf (round made : List ListenerCall) : Prop where
  initial : made.map ListenerCall.planned <+: round
  returned : ∀ call ∈ made.dropLast, call.threw = false

theorem threw_roundCalls {events : List ListenerEvent} {listeners : List Listener} :
    ∀ call ∈ roundCalls events listeners, call.threw = false := by
  intro call hcall
  obtain ⟨entry, -, hcall⟩ := List.mem_flatMap.1 hcall
  obtain ⟨event, -, rfl⟩ := List.mem_map.1 hcall
  rfl

theorem threw_entryCalls {entry : Nat} {listener : Listener} {events : List ListenerEvent} :
    ∀ call ∈ entryCalls entry listener events, call.threw = false := by
  intro call hcall
  obtain ⟨event, -, rfl⟩ := List.mem_map.1 hcall
  rfl

/-- Calls that have returned are as they were planned. -/
theorem map_planned {made : List ListenerCall} (h : ∀ call ∈ made, call.threw = false) :
    made.map ListenerCall.planned = made := by
  refine (List.map_congr_left fun call hcall => ?_).trans (List.map_id _)
  have hthrew := h call hcall
  cases call
  cases hthrew
  rfl

/-- The round of the first entries is an initial part of the round. -/
theorem roundCalls_of_take (events : List ListenerEvent) (listeners : List Listener) (i : Nat) :
    roundCalls events (listeners.take i) <+: roundCalls events listeners := by
  have hround : roundCalls events (listeners.take i ++ listeners.drop i) =
      roundCalls events (listeners.take i) ++
        ((listeners.drop i).zipIdx (listeners.take i).length).flatMap
          fun entry => events.map fun event => ⟨entry.2, entry.1, event, false⟩ := by
    rw [roundCalls, List.zipIdx_append, List.flatMap_append, Nat.zero_add]
    rfl
  rw [List.take_append_drop] at hround
  rw [hround]
  exact List.prefix_append _ _

/-- The list has only grown, and the entries in front of the cursor have had all their calls. -/
def Passed (events : List ListenerEvent) (s : MainService) (i : Nat) (current : MainService) :
    Prop :=
  (∃ added, current.listeners = s.listeners.addEach added) ∧
    current.calls = s.calls ++ roundCalls events (s.listeners.elements.take i)

/-- The list has only grown, and the calls end with one that has thrown. -/
def Threw (events : List ListenerEvent) (s : MainService) (current : MainService) : Prop :=
  (∃ added, current.listeners = s.listeners.addEach added) ∧
    ∃ i listener made e, s.listeners.elements[i]? = some listener ∧
      Delivered i listener events (some e) made ∧
      current.calls = s.calls ++ (roundCalls events (s.listeners.elements.take i) ++ made)

theorem grown_addEach (l : ArrayList Listener) (added : List Listener) :
    Grown l (l.addEach added) := by
  rw [ArrayList.addEach_eq]
  cases added with
  | nil => exact .inl (by rw [List.append_nil]; rfl)
  | cons a added =>
    refine .inr ⟨?_, ?_⟩
    · exact Nat.ne_of_gt (Nat.lt_add_of_pos_right (Nat.succ_pos _))
    · rw [List.length_append]
      exact Nat.lt_add_of_pos_right (Nat.succ_pos _)

/-- How a trigger ends. -/
theorem notify_ended (events : List ListenerEvent) (s : MainService) :
    ∃ exit s', notify react events s = some (exit, s') ∧
      Ended (Passed events s) (fun (_ : ProxyException) => Threw events s)
        s.listeners.elements.length exit s' := by
  refine forLoop_ends ?_ ?_ s.listeners.elements.length 0 (Nat.zero_add _)
    ⟨⟨[], rfl⟩, by simp [roundCalls]⟩
  · rintro i current ⟨⟨added, hadded⟩, -⟩
    rw [hadded]
    exact grown_addEach _ _
  · rintro i listener current helement ⟨-, hcalls⟩ hsame
    obtain ⟨exception, s', made, hrun, hmade, hdelivered⟩ :=
      deliver_calls react i listener events current
    obtain ⟨added, hadded⟩ := deliver_grows react i listener events current
    rw [hrun, hsame] at hadded
    refine ⟨fun e s₁ hthrew => ?_, fun s₁ hreturned => ?_⟩
    · cases hrun.symm.trans hthrew
      refine ⟨⟨added, hadded⟩, i, listener, made, e, helement, hdelivered, ?_⟩
      rw [hmade, hcalls, List.append_assoc]
    · cases hrun.symm.trans hreturned
      cases hdelivered
      refine ⟨⟨added, hadded⟩, ?_⟩
      rw [hmade, hcalls, List.append_assoc, roundCalls_take_succ events helement]
      rfl

/-- The calls that end with one that has thrown are an initial part of the round. -/
theorem partOf_threw {events : List ListenerEvent} {listeners : List Listener} {i : Nat}
    {listener : Listener} {e : ProxyException} {made : List ListenerCall}
    (helement : listeners[i]? = some listener)
    (h : Delivered i listener events (some e) made) :
    PartOf (roundCalls events listeners) (roundCalls events (listeners.take i) ++ made) := by
  cases h with
  | threw front rest event _ hevents =>
    refine ⟨?_, ?_⟩
    · have hentry : roundCalls events (listeners.take (i + 1)) =
          (roundCalls events (listeners.take i) ++
            (entryCalls i listener front ++ [⟨i, listener, event, false⟩])) ++
            entryCalls i listener rest := by
        rw [roundCalls_take_succ events helement, hevents]
        simp [entryCalls]
      rw [List.map_append, map_planned threw_roundCalls, List.map_append,
        map_planned threw_entryCalls]
      refine List.IsPrefix.trans ?_ (roundCalls_of_take events listeners (i + 1))
      rw [hentry]
      exact List.prefix_append _ _
    · rw [← List.append_assoc, List.dropLast_concat]
      intro call hcall
      rcases List.mem_append.1 hcall with hcall | hcall
      · exact threw_roundCalls call hcall
      · exact threw_entryCalls call hcall

theorem partOf_take (events : List ListenerEvent) (listeners : List Listener) (i : Nat) :
    PartOf (roundCalls events listeners) (roundCalls events (listeners.take i)) where
  initial := by
    rw [map_planned threw_roundCalls]
    exact roundCalls_of_take events listeners i
  returned call hcall := threw_roundCalls call (List.dropLast_subset _ hcall)

/-- What is known of a trigger that has ended. -/
structure TriggerEnds (events : List ListenerEvent) (s : MainService)
    (exit : Option (Exit ProxyException)) (s' : MainService) (made : List ListenerCall) : Prop where
  calls : s'.calls = s.calls ++ made
  partOf : PartOf (roundCalls events s.listeners.elements) made
  returned : exit = none → made = roundCalls events s.listeners.elements
  listeners : ∃ added, s'.listeners = s.listeners.addEach added

/-- A trigger ends, whatever happens during the callbacks. -/
theorem notify_triggerEnds (events : List ListenerEvent) (s : MainService) :
    ∃ exit s' made, notify react events s = some (exit, s') ∧
      TriggerEnds events s exit s' made := by
  obtain ⟨exit, s', hrun, hended⟩ := notify_ended react events s
  cases hended with
  | through h =>
    obtain ⟨hadded, hcalls⟩ := h
    rw [List.take_length] at hcalls
    have hpart := partOf_take events s.listeners.elements s.listeners.elements.length
    rw [List.take_length] at hpart
    exact ⟨_, _, _, hrun, hcalls, hpart, fun _ => rfl, hadded⟩
  | modified hi h =>
    exact ⟨_, _, _, hrun, h.2, partOf_take events _ _, (fun hexit => nomatch hexit), h.1⟩
  | thrown h =>
    obtain ⟨hadded, i, listener, made, e, helement, hdelivered, hcalls⟩ := h
    exact ⟨_, _, _, hrun, hcalls, partOf_threw helement hdelivered, (fun hexit => nomatch hexit),
      hadded⟩

/-- **Whatever happens during the callbacks, a trigger ends, and what it has called is an initial
part of its round: the sequence of events for each entry of the list as it was at the start, in
order. No call comes behind one that has thrown, and if the trigger returns it has called the whole
round.** -/
theorem notify_calls_initial (events : List ListenerEvent) (s : MainService) :
    ∃ exit s' made, notify react events s = some (exit, s') ∧ s'.calls = s.calls ++ made ∧
      made.map ListenerCall.planned <+: roundCalls events s.listeners.elements ∧
      (∀ call ∈ made.dropLast, call.threw = false) ∧
      (exit = none → made = roundCalls events s.listeners.elements) := by
  obtain ⟨exit, s', made, hrun, hends⟩ := notify_triggerEnds react events s
  exact ⟨exit, s', made, hrun, hends.calls, hends.partOf.initial, hends.partOf.returned,
    hends.returned⟩

/-! ## A listener that throws -/

/-- The entry of a call in the round of the first entries. -/
theorem entry_lt_of_mem {events : List ListenerEvent} {listeners : List Listener} {i : Nat}
    {call : ListenerCall} (h : call ∈ roundCalls events (listeners.take i)) : call.entry < i := by
  obtain ⟨entry, hentry, hcall⟩ := List.mem_flatMap.1 h
  obtain ⟨event, -, rfl⟩ := List.mem_map.1 hcall
  have hlt := (List.mem_zipIdx hentry).2.1
  rw [List.length_take] at hlt
  change entry.2 < i
  omega

/-- The round has a call for each entry. -/
theorem exists_mem_roundCalls {events : List ListenerEvent} {listeners : List Listener} {i : Nat}
    (hevents : events ≠ []) (hi : i < listeners.length) :
    ∃ call ∈ roundCalls events (listeners.take (i + 1)), call.entry = i := by
  obtain ⟨event, rest, rfl⟩ := List.exists_cons_of_ne_nil hevents
  refine ⟨⟨i, listeners[i], event, false⟩, ?_, rfl⟩
  rw [roundCalls_take_succ _ (List.getElem?_eq_getElem hi)]
  exact List.mem_append_right _ List.mem_cons_self

/-- If every call for an entry throws, a trigger makes no calls for the entries behind it, and
throws. -/
theorem TriggerEnds.of_dead {events : List ListenerEvent} {s s' : MainService}
    {exit : Option (Exit ProxyException)} {made : List ListenerCall} {i : Nat}
    (h : TriggerEnds events s exit s' made) (hevents : events ≠ [])
    (hi : i < s.listeners.elements.length)
    (hdead : ∀ call ∈ made, call.entry = i → call.threw = true) :
    (∀ call ∈ made, call.entry ≤ i) ∧ exit ≠ none := by
  obtain ⟨planned, hplanned, hentry⟩ := exists_mem_roundCalls hevents hi
  -- `first` is the part of the round up to the entry
  have hfirst := roundCalls_of_take events s.listeners.elements (i + 1)
  refine ⟨?_, ?_⟩
  · have hwithin : made.map ListenerCall.planned <+:
        roundCalls events (s.listeners.elements.take (i + 1)) := by
      generalize roundCalls events (s.listeners.elements.take (i + 1)) = first at hfirst hplanned
      rcases List.prefix_or_prefix_of_prefix h.partOf.initial hfirst with hwithin | hbeyond
      · exact hwithin
      rcases Nat.lt_or_ge first.length made.length with hlt | hge
      · -- the first call for the entry would not be the last call, so it would have returned
        exfalso
        have htake : (made.take first.length).map ListenerCall.planned = first := by
          rw [List.map_take]
          exact (List.prefix_iff_eq_take.1 hbeyond).symm
        rw [← htake] at hplanned
        obtain ⟨call, hcall, rfl⟩ := List.mem_map.1 hplanned
        have hreturned : call.threw = false := by
          refine h.partOf.returned call ?_
          rw [List.dropLast_eq_take]
          exact (List.take_prefix_take_left (by omega)).subset hcall
        have hthrew := hdead call (List.mem_of_mem_take hcall) hentry
        rw [hreturned] at hthrew
        cases hthrew
      · have heq := hbeyond.eq_of_length_le (by rw [List.length_map]; exact hge)
        exact ⟨[], by rw [List.append_nil, heq]⟩
    intro call hcall
    have hmem : call.planned ∈ roundCalls events (s.listeners.elements.take (i + 1)) :=
      hwithin.subset (List.mem_map_of_mem hcall)
    have hlt : call.planned.entry < i + 1 := entry_lt_of_mem hmem
    exact Nat.le_of_lt_succ hlt
  · intro hexit
    have hmade := h.returned hexit
    have hmem := hfirst.subset hplanned
    have hthrew := hdead planned (hmade ▸ hmem) hentry
    rw [threw_roundCalls planned hmem] at hthrew
    cases hthrew

/-! ## Runs -/

/-- Calls on the binder one after the other, with how each of them ends. -/
def ServiceCall.runAll : List ServiceCall → MainService →
    Option (List (Option (Exit ProxyException)) × MainService)
  | [], s => some ([], s)
  | call :: rest, s =>
    (call.run react s).bind fun ended =>
      (runAll rest ended.2).map fun others => (ended.1 :: others.1, others.2)

/-- What is known of a call of a run that has ended: it has appended to the list, and a listener
that throws has cut off those behind it. -/
structure CallEnds (call : ServiceCall) (s : MainService) (exit : Option (Exit ProxyException))
    (s' : MainService) (made : List ListenerCall) : Prop where
  calls : s'.calls = s.calls ++ made
  listeners : ∃ added, s'.listeners = s.listeners.addEach added
  cut : ∀ i < s.listeners.elements.length, (∀ c ∈ made, c.entry = i → c.threw = true) →
    (∀ c ∈ made, c.entry ≤ i) ∧ (call.events? ≠ none → exit ≠ none)

theorem ServiceCall.run_callEnds (call : ServiceCall) (s : MainService) :
    ∃ exit s' made, call.run react s = some (exit, s') ∧ CallEnds call s exit s' made := by
  have htrigger : ∀ events, events ≠ [] → ∃ exit s' made,
      notify react events s = some (exit, s') ∧ CallEnds call s exit s' made := by
    intro events hevents
    obtain ⟨exit, s', made, hrun, hends⟩ := notify_triggerEnds react events s
    refine ⟨exit, s', made, hrun, hends.calls, hends.listeners, fun i hi hdead => ?_⟩
    obtain ⟨hbehind, hexit⟩ := hends.of_dead hevents hi hdead
    exact ⟨hbehind, fun _ => hexit⟩
  cases call with
  | addListener listener =>
    refine ⟨none, _, [], rfl, (List.append_nil _).symm, ⟨[listener], rfl⟩, fun i _ _ => ?_⟩
    exact ⟨(fun c hc => nomatch hc), fun hevents => absurd rfl hevents⟩
  | triggerChange => exact htrigger changeEvents (List.cons_ne_nil _ _)
  | triggerDeviceAdded => exact htrigger deviceAddedEvents (List.cons_ne_nil _ _)

/-- **A listener that throws whenever it is called cuts off every listener behind it: in a run of
any calls, whatever else happens during the callbacks, no entry behind it is called again, and no
trigger returns.** -/
theorem deadListener_silences (i : Nat) :
    ∀ (calls : List ServiceCall) (s : MainService), i < s.listeners.elements.length →
      ∃ exits s' made, ServiceCall.runAll react calls s = some (exits, s') ∧
        s'.calls = s.calls ++ made ∧
        ((∀ c ∈ made, c.entry = i → c.threw = true) →
          (∀ c ∈ made, c.entry ≤ i) ∧
            ∀ (k : Nat) (call : ServiceCall), calls[k]? = some call → call.events? ≠ none →
              ∃ exit, exits[k]? = some (some exit)) := by
  intro calls
  induction calls with
  | nil =>
    intro s _
    refine ⟨[], s, [], rfl, (List.append_nil _).symm, fun _ => ⟨(fun c hc => nomatch hc), ?_⟩⟩
    intro k call hcall
    cases hcall
  | cons first rest ih =>
    intro s hi
    obtain ⟨exit, s₁, made₁, hrun, hcalls₁, ⟨added, hadded⟩, hcut⟩ := first.run_callEnds react s
    have hi₁ : i < s₁.listeners.elements.length := by
      rw [hadded, ArrayList.addEach_eq, List.length_append]
      omega
    obtain ⟨exits, s', made, hrest, hcalls, hdead⟩ := ih s₁ hi₁
    refine ⟨exit :: exits, s', made₁ ++ made, ?_, ?_, fun h => ?_⟩
    · rw [ServiceCall.runAll, hrun, Option.bind_some, hrest]
      rfl
    · rw [hcalls, hcalls₁, List.append_assoc]
    · obtain ⟨hbehind₁, hexit⟩ := hcut i hi fun c hc => h c (List.mem_append_left _ hc)
      obtain ⟨hbehind, hexits⟩ := hdead fun c hc => h c (List.mem_append_right _ hc)
      refine ⟨fun c hc => ?_, fun k call hcall hevents => ?_⟩
      · rcases List.mem_append.1 hc with hc | hc
        · exact hbehind₁ c hc
        · exact hbehind c hc
      · cases k with
        | zero =>
          cases hcall
          obtain ⟨exit, rfl⟩ := Option.ne_none_iff_exists'.1 (hexit hevents)
          exact ⟨exit, rfl⟩
        | succ k => exact hexits k call hcall hevents

end Service

/-- The process of the first listener is dead: the second listener, which is added in front of two
triggers, gets nothing, and both triggers throw. -/
theorem deadListener_silences_first :
    ∃ exits s', ServiceCall.runAll (fun _ => ⟨[], true⟩)
        [.addListener 8, .triggerChange, .triggerDeviceAdded] ⟨⟨[7], 1⟩, []⟩ = some (exits, s') ∧
      (∀ c ∈ s'.calls, c.entry ≤ 0) ∧
        ∀ (k : Nat) (call : ServiceCall),
          [ServiceCall.addListener 8, .triggerChange, .triggerDeviceAdded][k]? = some call →
            call.events? ≠ none → ∃ exit, exits[k]? = some (some exit) := by
  obtain ⟨exits, s', made, hrun, hcalls, hcut⟩ := deadListener_silences (fun _ => ⟨[], true⟩) 0
    [.addListener 8, .triggerChange, .triggerDeviceAdded] ⟨⟨[7], 1⟩, []⟩ (by decide)
  have hvalue : ServiceCall.runAll (fun _ => ⟨[], true⟩)
      [.addListener 8, .triggerChange, .triggerDeviceAdded] ⟨⟨[7], 1⟩, []⟩ =
        some ([none, some (.thrown .remoteException), some (.thrown .remoteException)],
          ⟨⟨[7, 8], 2⟩,
            [⟨0, 7, .onChanged, true⟩, ⟨0, 7, .onDeviceAdded ⟨24, 464, "hello"⟩, true⟩]⟩) := rfl
  cases hvalue.symm.trans hrun
  cases hcalls
  obtain ⟨hbehind, hexits⟩ := hcut (by decide)
  exact ⟨_, _, hvalue, hbehind, hexits⟩

end FwupdPoc
