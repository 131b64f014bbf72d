import FwupdPoc.Lib.FailFast

/-!
# `MainService`

The notifications of the Kotlin service. A trigger loops over the list of listeners, an `ArrayList`
with a fail-fast iterator, and calls each listener several times. What a listener does during a
callback is not known to the service: it returns, it throws because its process is dead, and before
that it may call `addListener` on the service, on which the call is waiting. `react k` is what
happens during the `k`-th callback the service makes.
-/

namespace FwupdPoc

open FailFast

/-! ## Events -/

/-- The parcelable `Device`. -/
structure Device where
  id : Int
  ido : Int
  path : String
  deriving DecidableEq

/-- The parcelable `OtherExample`. -/
structure OtherExample where
  id : Int
  «example» : String
  deriving DecidableEq

/-- The parcelable `DeepExample`. -/
structure DeepExample where
  other : Option OtherExample
  id : Int
  «example» : String
  deriving DecidableEq

/-- The calls of `IPocFwupdListener`. A double is its 64 bits, and a bundle is the list of its
strings. -/
inductive ListenerEvent where
  | onChanged
  | onDeviceAdded (device : Device)
  | onDeepExample (de : DeepExample)
  | onParams (int_param : Int) (double_param : BitVec 64) (string_param : Option String)
      (bool_param : Bool)
  | onBundles (count : Nat) (bundles : List (List (String × String))) (status : String)
  deriving DecidableEq

/-- The calls `triggerChange` makes for one listener. -/
def changeEvents : List ListenerEvent :=
  let pb := [("hello", "world")]
  let pbs := [pb, pb]
  [.onChanged,
    -- the double is 0.1
    .onParams 1 0x3FB999999999999A (some "string param") true,
    .onParams 1 0x3FB999999999999A none true,
    .onBundles pbs.length pbs "Okay"]

/-- The calls `triggerDeviceAdded` makes for one listener. -/
def deviceAddedEvents : List ListenerEvent :=
  let device : Device := ⟨24, 464, "hello"⟩
  let oe : OtherExample := ⟨31, "other example"⟩
  let de : DeepExample := ⟨some oe, 32, "example"⟩
  [.onDeviceAdded device, .onDeepExample de]

/-! ## The service -/

/-- The identity of a listener's proxy. -/
abbrev Listener := Nat

/-- What happens during a callback: the listeners it registers, and whether the call throws. -/
structure Reaction where
  adds : List Listener
  throws : Bool
  deriving DecidableEq

/-- The callback returns and has not called the service. -/
def Reaction.plain : Reaction := ⟨[], false⟩

theorem Reaction.eq_plain {r : Reaction} (hadds : r.adds = []) (hthrows : r.throws = false) :
    r = .plain := by
  cases r
  cases hadds
  cases hthrows
  rfl

/-- A call made to a listener: the entry of the list it was made for, and whether it threw. -/
structure ListenerCall where
  entry : Nat
  listener : Listener
  event : ListenerEvent
  threw : Bool
  deriving DecidableEq

/-- The service, with the calls it has made. -/
structure MainService where
  listeners : ArrayList Listener
  calls : List ListenerCall

/-- The exceptions a call on a proxy throws. -/
inductive ProxyException where
  | remoteException
  deriving DecidableEq

/-- The calls on the binder that the service is asked for. -/
inductive ServiceCall where
  | addListener (listener : Listener)
  | triggerChange
  | triggerDeviceAdded
  deriving DecidableEq

section Service

variable (react : Nat → Reaction)

/-- Calls a listener. -/
def callListener (entry : Nat) (listener : Listener) (event : ListenerEvent) (s : MainService) :
    Option ProxyException × MainService :=
  let reaction := react s.calls.length
  (if reaction.throws then some .remoteException else none,
    { listeners := s.listeners.addEach reaction.adds
      calls := s.calls ++ [⟨entry, listener, event, reaction.throws⟩] })

/-- Calls a listener with several events, until a call throws. -/
def deliver (entry : Nat) (listener : Listener) :
    List ListenerEvent → MainService → Option ProxyException × MainService
  | [], s => (none, s)
  | event :: rest, s =>
    match callListener react entry listener event s with
    | (some e, s') => (some e, s')
    | (none, s') => deliver entry listener rest s'

/-- The loop of a trigger, `for (listener in listeners)`. -/
def notify (events : List ListenerEvent) (s : MainService) :
    Option (Option (Exit ProxyException) × MainService) :=
  forLoop MainService.listeners (fun entry listener s => deliver react entry listener events s)
    (s.listeners.elements.length + 1) s.listeners.iterator s

/-- A call on the binder. -/
def ServiceCall.run : ServiceCall → MainService →
    Option (Option (Exit ProxyException) × MainService)
  | .addListener listener, s => some (none, { s with listeners := s.listeners.add listener })
  | .triggerChange, s => notify react changeEvents s
  | .triggerDeviceAdded, s => notify react deviceAddedEvents s

/-! ## One listener -/

/-- Calls that return and do not register leave the list alone. -/
theorem deliver_plain (entry : Nat) (listener : Listener) :
    ∀ (events : List ListenerEvent) (s : MainService),
      (∀ k < events.length, react (s.calls.length + k) = .plain) →
      deliver react entry listener events s =
        (none, { s with
          calls := s.calls ++ events.map fun event => ⟨entry, listener, event, false⟩ })
  | [], s, _ => by simp [deliver]
  | event :: rest, s, h => by
    have hfirst : react s.calls.length = .plain := h 0 (by simp)
    have hrest := deliver_plain entry listener rest
      ⟨s.listeners, s.calls ++ [⟨entry, listener, event, false⟩]⟩ (by
        intro k hk
        rw [List.length_append, List.length_singleton, Nat.add_assoc, Nat.add_comm 1 k]
        exact h (k + 1) (by simpa using hk))
    simp only [deliver, callListener, hfirst, Reaction.plain, ArrayList.addEach_eq]
    simpa using hrest

/-- Calls never take anything off the list. -/
theorem deliver_grows (entry : Nat) (listener : Listener) :
    ∀ (events : List ListenerEvent) (s : MainService),
      ∃ added, (deliver react entry listener events s).2.listeners = s.listeners.addEach added
  | [], s => ⟨[], rfl⟩
  | event :: rest, s => by
    obtain ⟨added, hadded⟩ := deliver_grows entry listener rest
      (callListener react entry listener event s).2
    rw [deliver]
    split
    · rename_i e s' hcall
      refine ⟨(react s.calls.length).adds, ?_⟩
      rw [← show (callListener react entry listener event s).2 = s' by rw [hcall]]
      rfl
    · rename_i s' hcall
      rw [← show (callListener react entry listener event s).2 = s' by rw [hcall]]
      refine ⟨(react s.calls.length).adds ++ added, ?_⟩
      rw [hadded, callListener, ArrayList.addEach_eq, ArrayList.addEach_eq, ArrayList.addEach_eq]
      simp only [List.append_assoc, List.length_append, Nat.add_assoc]

/-- If one of the calls throws or registers, an exception leaves the calls or the list has become
longer. -/
theorem deliver_disturbed (entry : Nat) (listener : Listener) :
    ∀ (events : List ListenerEvent) (s : MainService),
      (∃ k < events.length, react (s.calls.length + k) ≠ .plain) →
      (∃ e s', deliver react entry listener events s = (some e, s')) ∨
        ∃ s' added, deliver react entry listener events s = (none, s') ∧ added ≠ [] ∧
          s'.listeners = s.listeners.addEach added
  | [], s, h => by
    obtain ⟨k, hk, -⟩ := h
    simp at hk
  | event :: rest, s, h => by
    obtain ⟨k, hk, hdisturb⟩ := h
    rw [deliver]
    split
    · exact .inl ⟨_, _, rfl⟩
    · rename_i s' hcall
      have hs' : s' = (callListener react entry listener event s).2 := by rw [hcall]
      have hthrows : (react s.calls.length).throws = false := by
        by_contra hne
        simp [callListener, hne] at hcall
      by_cases hadds : (react s.calls.length).adds = []
      · -- the first call is plain, so the disturbance is further on
        have hplain := Reaction.eq_plain hadds hthrows
        have hk0 : k ≠ 0 := by
          rintro rfl
          exact hdisturb hplain
        have hlist : s'.listeners = s.listeners := by
          rw [hs', callListener, hadds]
          rfl
        rw [← hlist]
        refine deliver_disturbed entry listener rest s' ⟨k - 1, ?_, ?_⟩
        · simp only [List.length_cons] at hk
          omega
        · have hindex : s'.calls.length + (k - 1) = s.calls.length + k := by
            rw [hs', callListener, List.length_append, List.length_singleton]
            omega
          rw [hindex]
          exact hdisturb
      · obtain ⟨added, hadded⟩ := deliver_grows react entry listener rest s'
        cases hrun : deliver react entry listener rest s' with
        | mk exception s'' =>
          cases exception with
          | some e => exact .inl ⟨e, s'', rfl⟩
          | none =>
            refine .inr ⟨s'', (react s.calls.length).adds ++ added, rfl, by simp [hadds], ?_⟩
            rw [hrun] at hadded
            rw [hadded, hs', callListener, ArrayList.addEach_eq, ArrayList.addEach_eq,
              ArrayList.addEach_eq]
            simp only [List.append_assoc, List.length_append, Nat.add_assoc]

/-! ## One trigger -/

/-- The calls a trigger makes if all of them return. -/
def roundCalls (events : List ListenerEvent) (listeners : List Listener) : List ListenerCall :=
  listeners.zipIdx.flatMap fun entry => events.map fun event => ⟨entry.2, entry.1, event, false⟩

/-- The invariant of the loop: the list is the original one, and the entries in front of the cursor
have had all their calls. -/
def AtEntry (events : List ListenerEvent) (s : MainService) (i : Nat) (current : MainService) :
    Prop :=
  current.listeners = s.listeners ∧
    current.calls = s.calls ++ roundCalls events (s.listeners.elements.take i)

/-- The calls for an entry return and do not register. -/
def QuietEntry (events : List ListenerEvent) (s : MainService) (i : Nat) : Prop :=
  ∀ k < events.length, react (s.calls.length + i * events.length + k) = .plain

theorem length_roundCalls (events : List ListenerEvent) (listeners : List Listener) :
    (roundCalls events listeners).length = listeners.length * events.length := by
  simp [roundCalls, List.length_flatMap]

/-- One more entry is one more block of calls. -/
theorem roundCalls_take_succ (events : List ListenerEvent) {listeners : List Listener} {i : Nat}
    {listener : Listener} (h : listeners[i]? = some listener) :
    roundCalls events (listeners.take (i + 1)) =
      roundCalls events (listeners.take i) ++
        events.map fun event => ⟨i, listener, event, false⟩ := by
  obtain ⟨hi, rfl⟩ := List.getElem?_eq_some_iff.1 h
  rw [← List.take_append_getElem hi, roundCalls, roundCalls, List.zipIdx_append,
    List.flatMap_append]
  simp [Nat.min_eq_left (Nat.le_of_lt hi)]

/-- In front of an entry that is reached, the blocks of the entries before it have been made. -/
theorem AtEntry.length_calls {events : List ListenerEvent} {s current : MainService} {i : Nat}
    (h : AtEntry events s i current) (hi : i < s.listeners.elements.length) :
    current.calls.length = s.calls.length + i * events.length := by
  rw [h.2, List.length_append, length_roundCalls, List.length_take,
    Nat.min_eq_left (Nat.le_of_lt hi)]

/-- What the loop of a trigger has to know of its body. -/
theorem deliver_describes (events : List ListenerEvent) (s : MainService) :
    Describes s.listeners (QuietEntry react events s) (AtEntry events s) MainService.listeners
      (fun entry listener s => deliver react entry listener events s) where
  same _ _ h := h.1
  step i listener current helement h hquiet := by
    have hlength := h.length_calls (List.getElem?_eq_some_iff.1 helement).1
    obtain ⟨hlist, hcalls⟩ := h
    refine ⟨_, deliver_plain react i listener events current (hlength ▸ hquiet), hlist, ?_⟩
    rw [roundCalls_take_succ events helement, hcalls, List.append_assoc]
  disturb i listener current helement h hquiet := by
    have hlength := h.length_calls (List.getElem?_eq_some_iff.1 helement).1
    have hdisturb : ∃ k < events.length, react (current.calls.length + k) ≠ .plain := by
      rw [hlength]
      by_contra hnone
      refine hquiet fun k hk => ?_
      by_contra hne
      exact hnone ⟨k, hk, hne⟩
    rcases deliver_disturbed react i listener events current hdisturb with
      hthrow | ⟨s', added, hrun, hadded, hlist⟩
    · exact .inl hthrow
    · have hpos := List.length_pos_iff.2 hadded
      refine .inr ⟨s', hrun, ?_, ?_⟩
      · rw [hlist, h.1, ArrayList.addEach_eq]
        exact Nat.ne_of_gt (Nat.lt_add_of_pos_right hpos)
      · rw [hlist, h.1, ArrayList.addEach_eq, List.length_append]
        exact Nat.lt_add_of_pos_right hpos

/-- The callbacks a trigger makes if all return do return, and none registers a listener. -/
def Undisturbed (events : List ListenerEvent) (s : MainService) : Prop :=
  ∀ k < s.listeners.elements.length * events.length, react (s.calls.length + k) = .plain

/-- A trigger is undisturbed if all its entries are quiet. -/
theorem undisturbed_iff (events : List ListenerEvent) (s : MainService) :
    Undisturbed react events s ↔
      ∀ i < s.listeners.elements.length, QuietEntry react events s i := by
  constructor
  · intro h i hi k hk
    rw [Nat.add_assoc]
    refine h (i * events.length + k) ?_
    calc i * events.length + k
        < i * events.length + events.length := Nat.add_lt_add_left hk _
      _ = (i + 1) * events.length := (Nat.succ_mul _ _).symm
      _ ≤ s.listeners.elements.length * events.length := Nat.mul_le_mul_right _ hi
  · intro h k hk
    have hpos : 0 < events.length := Nat.pos_of_mul_pos_left (Nat.zero_lt_of_lt hk)
    have hi : k / events.length < s.listeners.elements.length :=
      Nat.div_lt_of_lt_mul (by rwa [Nat.mul_comm])
    have hentry := h _ hi (k % events.length) (Nat.mod_lt _ hpos)
    rwa [Nat.add_assoc, Nat.mul_comm, Nat.div_add_mod] at hentry

/-- An undisturbed trigger returns and has made all its calls. -/
theorem notify_undisturbed {events : List ListenerEvent} {s : MainService}
    (h : Undisturbed react events s) :
    notify react events s =
      some (none, { s with calls := s.calls ++ roundCalls events s.listeners.elements }) := by
  obtain ⟨s', hrun, hlist, hcalls⟩ := forLoop_quiet (deliver_describes react events s)
    s.listeners.elements.length 0 (Nat.zero_add _) ⟨rfl, by simp [roundCalls]⟩
    (fun j _ hj => (undisturbed_iff react events s).1 h j hj)
  rw [List.take_length] at hcalls
  have hs' : s' = { s with calls := s.calls ++ roundCalls events s.listeners.elements } := by
    rw [← hcalls, ← hlist]
  rw [← hs']
  exact hrun

/-- A disturbed trigger throws. -/
theorem notify_disturbed {events : List ListenerEvent} {s : MainService}
    (h : ¬ Undisturbed react events s) :
    ∃ exit s', notify react events s = some (some exit, s') := by
  refine forLoop_disturbed (deliver_describes react events s) s.listeners.elements.length 0
    (Nat.zero_add _) ⟨rfl, by simp [roundCalls]⟩ ?_
  by_contra hnone
  refine h ((undisturbed_iff react events s).2 fun j hj => ?_)
  by_contra hne
  exact hnone ⟨j, Nat.zero_le _, hj, hne⟩

/-- A trigger ends. -/
theorem notify_ends (events : List ListenerEvent) (s : MainService) :
    ∃ exit s', notify react events s = some (exit, s') := by
  by_cases h : Undisturbed react events s
  · exact ⟨_, _, notify_undisturbed react h⟩
  · obtain ⟨exit, s', hrun⟩ := notify_disturbed react h
    exact ⟨_, _, hrun⟩

/-! ## The purpose -/

/-- No call made for the entry has thrown. -/
def entryAlive (made : List ListenerCall) (i : Nat) : Bool :=
  made.all fun call => call.entry != i || !call.threw

/-- A trigger returns, and each entry of the list as it was at the start whose listener does not
throw has had the whole sequence of events once, in the order of the entries. -/
def Delivers (events : List ListenerEvent) (s : MainService) : Prop :=
  ∃ s' made, notify react events s = some (none, s') ∧ s'.calls = s.calls ++ made ∧
    ((made.filter fun call => entryAlive made call.entry).map fun call =>
        (call.entry, call.listener, call.event)) =
      (s.listeners.elements.zipIdx.filter fun entry => entryAlive made entry.2).flatMap
        fun entry => events.map fun event => (entry.2, entry.1, event)

/-- A trigger delivers exactly when it is undisturbed. -/
theorem delivers_iff (events : List ListenerEvent) (s : MainService) :
    Delivers react events s ↔ Undisturbed react events s := by
  constructor
  · rintro ⟨s', made, hrun, -⟩
    by_contra h
    obtain ⟨exit, s'', hthrow⟩ := notify_disturbed react h
    cases hrun.symm.trans hthrow
  · intro h
    refine ⟨_, _, notify_undisturbed react h, rfl, ?_⟩
    have halive : ∀ i, entryAlive (roundCalls events s.listeners.elements) i = true := by
      intro i
      rw [entryAlive, List.all_eq_true]
      intro call hcall
      obtain ⟨entry, -, hcall⟩ := List.mem_flatMap.1 hcall
      obtain ⟨event, -, rfl⟩ := List.mem_map.1 hcall
      simp
    rw [List.filter_eq_self.2 fun call _ => halive call.entry,
      List.filter_eq_self.2 fun entry _ => halive entry.2, roundCalls, List.map_flatMap]
    simp only [List.map_map]
    rfl

/-! ## Runs -/

/-- The events of the call, if it is a trigger. -/
def ServiceCall.events? : ServiceCall → Option (List ListenerEvent)
  | .addListener _ => none
  | .triggerChange => some changeEvents
  | .triggerDeviceAdded => some deviceAddedEvents

/-- Every trigger of a run delivers. -/
def RunDelivers : List ServiceCall → MainService → Prop
  | [], _ => True
  | call :: rest, s =>
    (∀ events, call.events? = some events → Delivers react events s) ∧
      ∃ exit s', call.run react s = some (exit, s') ∧ RunDelivers rest s'

/-- Every trigger of a run is undisturbed. -/
def RunUndisturbed : List ServiceCall → MainService → Prop
  | [], _ => True
  | call :: rest, s =>
    (∀ events, call.events? = some events → Undisturbed react events s) ∧
      ∀ exit s', call.run react s = some (exit, s') → RunUndisturbed rest s'

/-- A call ends. -/
theorem ServiceCall.run_ends (call : ServiceCall) (s : MainService) :
    ∃ exit s', call.run react s = some (exit, s') := by
  cases call with
  | addListener listener => exact ⟨_, _, rfl⟩
  | triggerChange => exact notify_ends react changeEvents s
  | triggerDeviceAdded => exact notify_ends react deviceAddedEvents s

/-- **Every trigger of a run delivers its events exactly when no callback of a trigger throws or
registers a listener.** -/
theorem runDelivers_iff :
    ∀ (calls : List ServiceCall) (s : MainService),
      RunDelivers react calls s ↔ RunUndisturbed react calls s := by
  intro calls
  induction calls with
  | nil => exact fun s => Iff.rfl
  | cons call rest ih =>
    intro s
    obtain ⟨exit, s', hrun⟩ := call.run_ends react s
    refine and_congr (forall₂_congr fun events _ => delivers_iff react events s) ?_
    constructor
    · rintro ⟨exit₁, s₁, hrun₁, hrest⟩ exit₂ s₂ hrun₂
      cases hrun₁.symm.trans hrun₂
      exact (ih s₁).1 hrest
    · intro hrest
      exact ⟨exit, s', hrun, (ih s').2 (hrest exit s' hrun)⟩

end Service

/-- The first callback throws, and no other one does. -/
def firstThrows (k : Nat) : Reaction := if k = 0 then ⟨[], true⟩ else .plain

/-- The exception of a dead listener ends the trigger in front of the next listener. -/
theorem firstThrows_not_delivered :
    ServiceCall.triggerChange.run firstThrows ⟨⟨[7, 8], 2⟩, []⟩ =
        some (some (.thrown .remoteException), ⟨⟨[7, 8], 2⟩, [⟨0, 7, .onChanged, true⟩]⟩) ∧
      ¬ RunDelivers firstThrows [.addListener 7, .addListener 8, .triggerChange]
        ⟨⟨[], 0⟩, []⟩ := by
  have hthrow : ServiceCall.triggerChange.run firstThrows ⟨⟨[7, 8], 2⟩, []⟩ =
      some (some (.thrown .remoteException), ⟨⟨[7, 8], 2⟩, [⟨0, 7, .onChanged, true⟩]⟩) := rfl
  refine ⟨hthrow, ?_⟩
  rintro ⟨-, _, _, ⟨⟩, -, _, _, ⟨⟩, hdelivers, -⟩
  obtain ⟨s', made, hrun, -⟩ := hdelivers changeEvents rfl
  cases hthrow.symm.trans hrun

end FwupdPoc
