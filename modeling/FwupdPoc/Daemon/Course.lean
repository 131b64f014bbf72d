import FwupdPoc.Daemon.Rounds

/-!
# The course of a run

Whether requests return, and how the registry grows meanwhile, can be told from the requests that
arrive: which of them arrives at which call depends on nothing but the registry and on how many
calls and requests there were before. An `Outline` is that much of a state, and `Finishes` says that
what is pending comes to an end. It has a rule for each loop: over the calls of a body, over the
entries of the registry, which is read as it is by then, and over the requests that have arrived.

The handler returns where such a course exists (`answerAll_returns_iff`): a course is carried out by
induction on its derivation (`Finishes.completes`), and a run takes one by induction on the fuel
(`handle_finishes`). Where nothing arrives during the calls, there is one exactly if the request
does not end the process (`finishes_alone_iff`).
-/

namespace FwupdPoc

variable {platform : DaemonPlatform} {nested : Nat → List Request}
  {answer : Request → PocDaemon → Except Fault (Answer × PocDaemon)}

/-! ## Courses -/

/-- What the course of a run depends on: the registry, and the numbers of calls sent and of
transactions received. -/
structure Outline where
  listeners : List (Option Remote)
  sent : Nat
  received : Nat

/-- The outline of a state. -/
def PocDaemon.outline (s : PocDaemon) : Outline := ⟨s.listenerArray, s.sent.length, s.received⟩

/-- The outline with another call sent. -/
def Outline.send (o : Outline) : Outline := { o with sent := o.sent + 1 }

/-- The outline with another transaction received. -/
def Outline.enter (o : Outline) : Outline := { o with received := o.received + 1 }

/-- The outline with some more listeners. -/
def Outline.add (o : Outline) (listeners : List (Option Remote)) : Outline :=
  { o with listeners := o.listeners ++ listeners }

/-- What is still to be done: calls to listeners, the round of a request from entry `i` of the
registry on, or requests that have arrived. A request that is no trigger has a round without
calls. -/
inductive Pending where
  | calls (n : Nat)
  | round (req : Request) (i : Nat)
  | requests (reqs : List Request)

/-- What is pending comes to an end, and neither it nor what arrives meanwhile ends the process,
where all requests that are handled are `allowed`. The outlines are those before and after. -/
inductive Finishes (platform : DaemonPlatform) (nested : Nat → List Request)
    (allowed : Request → Prop) : Pending → Outline → Outline → Prop where
  | noCalls {o : Outline} : Finishes platform nested allowed (.calls 0) o o
  /-- A call, with the requests that arrive before its reply. -/
  | call {n : Nat} {o o₁ o' : Outline} :
    Finishes platform nested allowed (.requests (nested o.sent)) o.send o₁ →
    Finishes platform nested allowed (.calls n) o₁ o' →
    Finishes platform nested allowed (.calls (n + 1)) o o'
  | roundEnds {req : Request} {i : Nat} {o : Outline} : o.listeners.length ≤ i →
    Finishes platform nested allowed (.round req i) o o
  /-- An entry of the registry, which is read as it is by then. -/
  | entry {req : Request} {i : Nat} {target : Option Remote} {o o₁ o' : Outline} :
    o.listeners[i]? = some target →
    ¬ req.CrashesAt platform target →
    Finishes platform nested allowed (.calls (req.deliveries [target]).length) o o₁ →
    Finishes platform nested allowed (.round req (i + 1)) o₁ o' →
    Finishes platform nested allowed (.round req i) o o'
  | noRequests {o : Outline} : Finishes platform nested allowed (.requests []) o o
  | request {req : Request} {rest : List Request} {o o₁ o' : Outline} :
    allowed req →
    req.fault (platform.library o.received) = none →
    Finishes platform nested allowed (.round req 0) o.enter o₁ →
    Finishes platform nested allowed (.requests rest) (o₁.add req.added) o' →
    Finishes platform nested allowed (.requests (req :: rest)) o o'

section Finishes

variable {allowed : Request → Prop} {pending : Pending} {o o' : Outline}

theorem Finishes.of_call {n : Nat} (h : Finishes platform nested allowed (.calls (n + 1)) o o') :
    ∃ o₁, Finishes platform nested allowed (.requests (nested o.sent)) o.send o₁ ∧
      Finishes platform nested allowed (.calls n) o₁ o' := by
  cases h with
  | call hnested hrest => exact ⟨_, hnested, hrest⟩

theorem Finishes.of_round {req : Request} {i : Nat} {target : Option Remote}
    (h : Finishes platform nested allowed (.round req i) o o')
    (hi : o.listeners[i]? = some target) :
    ¬ req.CrashesAt platform target ∧
      ∃ o₁, Finishes platform nested allowed (.calls (req.deliveries [target]).length) o o₁ ∧
        Finishes platform nested allowed (.round req (i + 1)) o₁ o' := by
  cases h with
  | roundEnds hend => exact absurd (List.getElem?_eq_some_iff.1 hi).1 (Nat.not_lt.2 hend)
  | entry hi' hcrash hcalls hrest =>
    cases hi.symm.trans hi'
    exact ⟨hcrash, _, hcalls, hrest⟩

theorem Finishes.of_request {req : Request} {rest : List Request}
    (h : Finishes platform nested allowed (.requests (req :: rest)) o o') :
    allowed req ∧ req.fault (platform.library o.received) = none ∧
      ∃ o₁, Finishes platform nested allowed (.round req 0) o.enter o₁ ∧
        Finishes platform nested allowed (.requests rest) (o₁.add req.added) o' := by
  cases h with
  | request hallowed hfault hround hrest => exact ⟨hallowed, hfault, _, hround, hrest⟩

/-- The round of a request that is no trigger. -/
theorem Finishes.round_of_no_events {req : Request} (hevents : req.events = []) (i : Nat)
    (o : Outline) : Finishes platform nested allowed (.round req i) o o := by
  cases hentry : o.listeners[i]? with
  | none => exact .roundEnds (List.getElem?_eq_none_iff.1 hentry)
  | some target =>
    refine .entry hentry (Request.not_crashesAt_of_no_events hevents target) ?_
      (round_of_no_events hevents (i + 1) o)
    rw [Request.deliveries_of_no_events hevents]
    exact .noCalls
termination_by o.listeners.length - i
decreasing_by
  have := (List.getElem?_eq_some_iff.1 hentry).1
  omega

/-- Such a round changes nothing. -/
theorem Finishes.eq_of_no_events (h : Finishes platform nested allowed pending o o') :
    ∀ req i, pending = .round req i → req.events = [] → o' = o := by
  induction h with
  | roundEnds =>
    intro _ _ _ _
    rfl
  | @entry req i target _ _ _ _ _ hcalls _ _ ih =>
    intro _ _ hpending hevents
    cases hpending
    have hsame := ih req (i + 1) rfl hevents
    rw [Request.deliveries_of_no_events hevents] at hcalls
    cases hcalls
    exact hsame
  | _ =>
    intro _ _ hpending
    cases hpending

/-- The registry only grows. -/
theorem Finishes.listeners_grow (h : Finishes platform nested allowed pending o o') :
    o.listeners <+: o'.listeners := by
  induction h with
  | noCalls | roundEnds | noRequests => exact List.prefix_refl _
  | call _ _ ihnested ihrest => exact ihnested.trans ihrest
  | entry _ _ _ _ ihcalls ihrest => exact ihcalls.trans ihrest
  | request _ _ _ _ ihround ihrest =>
    exact ihround.trans ((List.prefix_append _ _).trans ihrest)

/-- A round ends the process at none of the entries that it starts with. -/
theorem Finishes.not_crashesAt (h : Finishes platform nested allowed pending o o') :
    ∀ req i, pending = .round req i → ∀ j ≥ i, ∀ target, o.listeners[j]? = some target →
      ¬ req.CrashesAt platform target := by
  induction h with
  | roundEnds hend =>
    intro req i hpending j hj target htarget
    cases hpending
    have := (List.getElem?_eq_some_iff.1 htarget).1
    omega
  | @entry req i _ _ _ _ hi hcrash hcalls _ _ ih =>
    intro _ _ hpending j hj target htarget
    cases hpending
    rcases Nat.eq_or_lt_of_le hj with rfl | hlt
    · cases hi.symm.trans htarget
      exact hcrash
    · -- an entry behind this one is still there when its calls have returned
      obtain ⟨new, hnew⟩ := hcalls.listeners_grow
      refine ih req (i + 1) rfl j hlt target ?_
      rw [← hnew, List.getElem?_append_left (List.getElem?_eq_some_iff.1 htarget).1]
      exact htarget
  | _ =>
    intro _ _ hpending
    cases hpending

/-- What is allowed may be widened. -/
theorem Finishes.mono {allowed' : Request → Prop}
    (h : Finishes platform nested allowed pending o o')
    (hmono : ∀ req, allowed req → allowed' req) :
    Finishes platform nested allowed' pending o o' := by
  induction h with
  | noCalls => exact .noCalls
  | call _ _ ihnested ihrest => exact .call ihnested ihrest
  | roundEnds hend => exact .roundEnds hend
  | entry hi hcrash _ _ ihcalls ihrest => exact .entry hi hcrash ihcalls ihrest
  | noRequests => exact .noRequests
  | request hallowed hfault _ _ ihround ihrest =>
    exact .request (hmono _ hallowed) hfault ihround ihrest

end Finishes

/-! ## The course of the handler -/

/-- What is pending is carried out for all large enough fuels. -/
def Pending.Completes (platform : DaemonPlatform) (nested : Nat → List Request) (o o' : Outline) :
    Pending → Prop
  | .calls n => ∀ calls s, List.length calls = n → s.outline = o →
    ∃ s' bound, s'.outline = o' ∧
      ∀ fuel ≥ bound, sendAll (transactSyncReply platform nested fun req s =>
        handle platform nested fuel req s) calls s = .ok s'
  | .round req i => ∀ transaction lib actions s, req.round lib = some actions → s.outline = o →
    ∃ s' bound, s'.outline = o' ∧
      ∀ fuel ≥ bound, ∀ steps ≥ bound, Growing.forEntries PocDaemon.listenerArray
        (listenerBody platform (transactSyncReply platform nested fun req s =>
          handle platform nested fuel req s) transaction actions) .outOfFuel steps i s = .ok s'
  | .requests reqs => ∀ s, s.outline = o →
    ∃ s' bound, s'.outline = o' ∧
      ∀ fuel ≥ bound, answerAll (fun req s => handle platform nested fuel req s) reqs s = .ok s'

/-- The calls of a loop body are as many as the deliveries to its entry. -/
theorem length_calls_of_round {lib : Library} {req : Request} {actions : Nat → List Action}
    (h : req.round lib = some actions) (transaction : Nat) (target : Option Remote) (i : Nat) :
    (Action.calls transaction target (actions i)).length = (req.deliveries [target]).length := by
  rw [← calls_of_round h transaction target i, List.length_map]

/-- A request whose round is carried out is handled. -/
theorem handle_completes {req : Request} {o₁ : Outline} {s : PocDaemon}
    (hfault : req.fault (platform.library s.received) = none)
    (hcourse : Finishes platform nested (fun _ => True) (.round req 0) s.enter.outline o₁)
    (hround : (Pending.round req 0).Completes platform nested s.enter.outline o₁) :
    ∃ s₁ bound, s₁.outline = o₁.add req.added ∧
      ∀ fuel ≥ bound, ∃ reply, handle platform nested (fuel + 1) req s = .ok (reply, s₁) := by
  cases hactions : req.round (platform.library s.received) with
  | none =>
    have hsame := hcourse.eq_of_no_events req 0 rfl (Request.events_of_no_round hactions)
    refine ⟨s.enter.add req.added, 0, ?_, fun fuel _ => ?_⟩
    · rw [hsame]
      rfl
    · rcases handleCallsCb_of_no_round (transactSyncReply platform nested
        fun req s => handle platform nested fuel req s) fuel hactions with
        ⟨fault, hfault', -⟩ | ⟨-, reply, hrun, -⟩
      · cases hfault.symm.trans hfault'
      · exact ⟨reply, hrun⟩
  | some actions =>
    obtain ⟨s₁, bound, houtline, hloop⟩ :=
      hround s.received (platform.library s.received) actions s.enter hactions rfl
    refine ⟨s₁, bound, ?_, fun fuel hfuel => ⟨noReply, ?_⟩⟩
    · rw [houtline, (Request.of_round hactions).2.1]
      simp [Outline.add]
    · rw [handle, handleCallsCb_of_round hactions, forListeners, hloop fuel hfuel fuel hfuel]
      rfl

/-- A course is carried out. -/
theorem Finishes.completes {pending : Pending} {o o' : Outline}
    (h : Finishes platform nested (fun _ => True) pending o o') :
    pending.Completes platform nested o o' := by
  induction h with
  | noCalls =>
    intro calls s hlength houtline
    cases List.length_eq_zero_iff.1 hlength
    exact ⟨s, 0, houtline, fun _ _ => rfl⟩
  | call _ _ ihnested ihrest =>
    intro calls s hlength houtline
    obtain ⟨call, rest, rfl⟩ := List.exists_cons_of_length_eq_add_one hlength
    subst houtline
    obtain ⟨s₁, bound, houtline₁, hnested⟩ := ihnested
      { s with sent := s.sent ++ [(call, platform.status s.sent.length)] }
      (by simp [PocDaemon.outline, Outline.send])
    obtain ⟨s', bound', houtline', hrest⟩ := ihrest rest s₁ (Nat.succ.inj hlength) houtline₁
    refine ⟨s', max bound bound', houtline', fun fuel hfuel => ?_⟩
    exact sendAll_cons.2 ⟨s₁, hnested fuel (le_of_max_le_left hfuel),
      hrest fuel (le_of_max_le_right hfuel)⟩
  | roundEnds hend =>
    intro transaction lib actions s _ houtline
    subst houtline
    refine ⟨s, 1, rfl, fun fuel _ steps hsteps => ?_⟩
    obtain ⟨steps, rfl⟩ : ∃ n, steps = n + 1 := ⟨steps - 1, by omega⟩
    have hnone : s.listenerArray[_]? = none := List.getElem?_eq_none_iff.2 hend
    rw [Growing.forEntries, hnone]
  | @entry req i target _ _ _ hi hcrash _ _ ihcalls ihrest =>
    intro transaction lib actions s hround houtline
    subst houtline
    obtain ⟨s₁, bound, houtline₁, hcalls⟩ := ihcalls
      (Action.calls transaction target (actions i)) s
      (length_calls_of_round hround transaction target i) rfl
    obtain ⟨s', bound', houtline', hrest⟩ := ihrest transaction lib actions s₁ hround houtline₁
    refine ⟨s', max bound bound' + 1, houtline', fun fuel hfuel steps hsteps => ?_⟩
    obtain ⟨steps, rfl⟩ : ∃ n, steps = n + 1 := ⟨steps - 1, by omega⟩
    have hstops := mt (stopsAt_of_round hround target i).1 hcrash
    have hbody := listenerBody_ok.2 ⟨hstops, hcalls fuel (by omega)⟩
    have hentry : s.listenerArray[i]? = some target := hi
    simp only [Growing.forEntries, hentry, hbody]
    exact hrest fuel (by omega) steps (by omega)
  | noRequests =>
    intro s houtline
    exact ⟨s, 0, houtline, fun _ _ => rfl⟩
  | request _ hfault hcourse _ ihround ihrest =>
    intro s houtline
    subst houtline
    obtain ⟨s₁, bound, houtline₁, hreq⟩ := handle_completes hfault hcourse ihround
    obtain ⟨s', bound', houtline', hrest⟩ := ihrest s₁ houtline₁
    refine ⟨s', max bound bound' + 1, houtline', fun fuel hfuel => ?_⟩
    obtain ⟨fuel, rfl⟩ : ∃ f, fuel = f + 1 := ⟨fuel - 1, by omega⟩
    obtain ⟨reply, hrun⟩ := hreq fuel (by omega)
    exact answerAll_cons.2 ⟨reply, s₁, hrun, hrest (fuel + 1) (by omega)⟩

/-- A request that is handled takes its course. -/
def AnswersFinish (platform : DaemonPlatform) (nested : Nat → List Request)
    (answer : Request → PocDaemon → Except Fault (Answer × PocDaemon)) : Prop :=
  ∀ req s reply s', answer req s = .ok (reply, s') →
    req.fault (platform.library s.received) = none ∧
      ∃ o₁, Finishes platform nested (fun _ => True) (.round req 0) s.outline.enter o₁ ∧
        s'.outline = o₁.add req.added

theorem answerAll_finishes (h : AnswersFinish platform nested answer) :
    ∀ {reqs : List Request} {s s' : PocDaemon}, answerAll answer reqs s = .ok s' →
      Finishes platform nested (fun _ => True) (.requests reqs) s.outline s'.outline
  | [], s, s', hrun => by
    cases hrun
    exact .noRequests
  | req :: rest, s, s', hrun => by
    obtain ⟨reply, s₁, hreq, hrest⟩ := answerAll_cons.1 hrun
    obtain ⟨hfault, o₁, hround, houtline⟩ := h req s reply s₁ hreq
    have hothers := answerAll_finishes h hrest
    rw [houtline] at hothers
    exact .request trivial hfault hround hothers

theorem sendAll_finishes (h : AnswersFinish platform nested answer) :
    ∀ {calls : List Call} {s s' : PocDaemon},
      sendAll (transactSyncReply platform nested answer) calls s = .ok s' →
      Finishes platform nested (fun _ => True) (.calls calls.length) s.outline s'.outline
  | [], s, s', hrun => by
    cases hrun
    exact .noCalls
  | call :: rest, s, s', hrun => by
    obtain ⟨s₁, hcall, hrest⟩ := sendAll_cons.1 hrun
    have hnested := answerAll_finishes h hcall
    refine .call ?_ (sendAll_finishes h hrest)
    simpa [PocDaemon.outline, Outline.send] using hnested

theorem forEntries_finishes (h : AnswersFinish platform nested answer) {lib : Library}
    {req : Request} {actions : Nat → List Action} (hround : req.round lib = some actions)
    {transaction : Nat} :
    ∀ {steps i : Nat} {s s' : PocDaemon}, Growing.forEntries PocDaemon.listenerArray
        (listenerBody platform (transactSyncReply platform nested answer) transaction actions)
        .outOfFuel steps i s = .ok s' →
      Finishes platform nested (fun _ => True) (.round req i) s.outline s'.outline
  | 0, _, _, _, hrun => by cases hrun
  | steps + 1, i, s, s', hrun => by
    rw [Growing.forEntries] at hrun
    cases hentry : s.listenerArray[i]? with
    | none =>
      rw [hentry] at hrun
      cases hrun
      exact .roundEnds (List.getElem?_eq_none_iff.1 hentry)
    | some target =>
      rw [hentry] at hrun
      dsimp only at hrun
      cases hbody : listenerBody platform (transactSyncReply platform nested answer) transaction
          actions i target s with
      | error fault =>
        rw [hbody] at hrun
        cases hrun
      | ok s₁ =>
        rw [hbody] at hrun
        obtain ⟨hstops, hcalls⟩ := listenerBody_ok.1 hbody
        have hcourse := sendAll_finishes h hcalls
        rw [length_calls_of_round hround] at hcourse
        exact .entry hentry (mt (stopsAt_of_round hround target i).2 hstops) hcourse
          (forEntries_finishes h hround hrun)

theorem handle_finishes : ∀ fuel : Nat,
    AnswersFinish platform nested fun req s => handle platform nested fuel req s
  | 0 => by
    intro req s reply s' hrun
    cases hrun
  | fuel + 1 => by
    intro req s reply s' hrun
    have hrun : handleCallsCb platform (transactSyncReply platform nested fun req s =>
        handle platform nested fuel req s) fuel req s = .ok (reply, s') := hrun
    cases hround : req.round (platform.library s.received) with
    | none =>
      rcases handleCallsCb_of_no_round (transactSyncReply platform nested
        fun req s => handle platform nested fuel req s) fuel hround with
        ⟨fault, -, hrun'⟩ | ⟨hfault, reply', hrun', -⟩
      · cases hrun.symm.trans hrun'
      · cases hrun.symm.trans hrun'
        exact ⟨hfault, _,
          Finishes.round_of_no_events (Request.events_of_no_round hround) 0 _, rfl⟩
    | some actions =>
      obtain ⟨-, hadded, hfault⟩ := Request.of_round hround
      rw [handleCallsCb_of_round hround] at hrun
      cases hloop : forListeners platform (transactSyncReply platform nested
          fun req s => handle platform nested fuel req s) s.received actions fuel s.enter with
      | error fault =>
        rw [hloop] at hrun
        cases hrun
      | ok s₁ =>
        rw [hloop] at hrun
        cases hrun
        refine ⟨hfault, _, forEntries_finishes (handle_finishes fuel) hround hloop, ?_⟩
        simp [hadded, Outline.add]

/-- Requests are handled, with some fuel, if and only if they come to an end by their course. -/
theorem answerAll_returns_iff (reqs : List Request) (s : PocDaemon) :
    (∃ fuel s', answerAll (fun req s => handle platform nested fuel req s) reqs s = .ok s') ↔
      ∃ o', Finishes platform nested (fun _ => True) (.requests reqs) s.outline o' := by
  refine ⟨fun ⟨fuel, s', hrun⟩ => ⟨_, answerAll_finishes (handle_finishes fuel) hrun⟩,
    fun ⟨o', hcourse⟩ => ?_⟩
  obtain ⟨s', bound, -, hrun⟩ := hcourse.completes s rfl
  exact ⟨bound, s', hrun bound (Nat.le_refl _)⟩

/-! ## Courses in which nothing arrives -/

section Alone

variable {allowed : Request → Prop}

theorem Finishes.calls_alone (n : Nat) (o : Outline) :
    ∃ o', Finishes platform (fun _ => []) allowed (.calls n) o o' ∧
      o'.listeners = o.listeners := by
  induction n generalizing o with
  | zero => exact ⟨o, .noCalls, rfl⟩
  | succ n ih =>
    obtain ⟨o', hrest, hsame⟩ := ih o.send
    exact ⟨o', .call .noRequests hrest, hsame⟩

theorem Finishes.round_alone {req : Request} (i : Nat) (o : Outline)
    (h : ∀ target ∈ o.listeners, ¬ req.CrashesAt platform target) :
    ∃ o', Finishes platform (fun _ => []) allowed (.round req i) o o' := by
  cases hentry : o.listeners[i]? with
  | none => exact ⟨o, .roundEnds (List.getElem?_eq_none_iff.1 hentry)⟩
  | some target =>
    obtain ⟨o₁, hcalls, hsame⟩ := calls_alone (req.deliveries [target]).length o
    have hlt : i < o.listeners.length := (List.getElem?_eq_some_iff.1 hentry).1
    obtain ⟨o', hrest⟩ := round_alone (i + 1) o₁ (hsame ▸ h)
    exact ⟨o', .entry hentry (h target (List.mem_of_getElem? hentry)) hcalls hrest⟩
termination_by o.listeners.length - i
decreasing_by
  rw [hsame]
  omega

/-- Where nothing arrives, a request comes to an end if and only if it is allowed and does not end
the process. -/
theorem finishes_alone_iff (req : Request) (o : Outline) :
    (∃ o', Finishes platform (fun _ => []) allowed (.requests [req]) o o') ↔
      allowed req ∧ ¬ req.Crashes platform (platform.library o.received) o.listeners := by
  refine ⟨fun ⟨o', hcourse⟩ => ?_, fun ⟨hallowed, hcrash⟩ => ?_⟩
  · obtain ⟨hallowed, hfault, o₁, hround, -⟩ := hcourse.of_request
    refine ⟨hallowed, ?_⟩
    rintro (hnot | ⟨target, hmem, hcrash⟩)
    · exact hnot hfault
    · obtain ⟨j, hj⟩ := List.mem_iff_getElem?.1 hmem
      exact hround.not_crashesAt req 0 rfl j (Nat.zero_le j) target hj hcrash
  · have hfault : req.fault (platform.library o.received) = none := by
      by_contra hnot
      exact hcrash (.inl hnot)
    obtain ⟨o₁, hround⟩ : ∃ o₁, Finishes platform (fun _ => []) allowed (.round req 0) o.enter o₁ :=
      Finishes.round_alone 0 o.enter fun target hmem hat => hcrash (.inr ⟨target, hmem, hat⟩)
    exact ⟨_, .request hallowed hfault hround .noRequests⟩

end Alone

/-! ## Objects in the registry -/

/-- A request adds no object to the registry: it is no `ADD_LISTENER`, or one without an object. -/
def Request.AddsNoObject (req : Request) : Prop := ∀ object, some object ∉ req.added

/-- The entries of the registry that are objects. -/
def Outline.objects (o : Outline) : List (Option Remote) := o.listeners.filter Option.isSome

theorem Outline.objects_add (o : Outline) (listeners : List (Option Remote)) :
    (o.add listeners).objects = o.objects ++ listeners.filter Option.isSome := List.filter_append ..

theorem Request.addsNoObject_iff {req : Request} :
    req.AddsNoObject ↔ req.added.filter Option.isSome = [] := by
  rw [Request.AddsNoObject, List.filter_eq_nil_iff]
  refine ⟨fun h entry hentry hobject => ?_, fun h object hobject => h _ hobject rfl⟩
  obtain ⟨object, rfl⟩ := Option.isSome_iff_exists.1 hobject
  exact h object hentry

section Objects

variable {allowed : Request → Prop} {pending : Pending} {o o' : Outline}

/-- Objects stay in the registry. -/
theorem Finishes.objects_grow (h : Finishes platform nested allowed pending o o') :
    o.objects <+: o'.objects := h.listeners_grow.filter _

/-- Where no request adds an object, the objects are those at the start. -/
theorem Finishes.objects_eq (h : Finishes platform nested Request.AddsNoObject pending o o') :
    o'.objects = o.objects := by
  induction h with
  | noCalls | roundEnds | noRequests => rfl
  | call _ _ ihnested ihrest => exact ihrest.trans ihnested
  | entry _ _ _ _ ihcalls ihrest => exact ihrest.trans ihcalls
  | request hadds _ _ _ ihround ihrest =>
    rw [Outline.objects_add, Request.addsNoObject_iff.1 hadds, List.append_nil] at ihrest
    exact ihrest.trans ihround

/-- A list between two that are the same is the same. -/
theorem eq_of_between {α : Type} {l l₁ l' : List α} (h : l <+: l₁) (h' : l₁ <+: l')
    (hsame : l' = l) : l₁ = l := by
  rw [hsame] at h'
  exact (h.eq_of_length_le h'.length_le).symm

/-- If the objects are the same at the end, no request has added one. -/
theorem Finishes.adds_no_object (h : Finishes platform nested allowed pending o o')
    (hsame : o'.objects = o.objects) :
    Finishes platform nested Request.AddsNoObject pending o o' := by
  induction h with
  | noCalls => exact .noCalls
  | call hnested hrest ihnested ihrest =>
    have hsame₁ := eq_of_between hnested.objects_grow hrest.objects_grow hsame
    exact .call (ihnested hsame₁) (ihrest (hsame.trans hsame₁.symm))
  | roundEnds hend => exact .roundEnds hend
  | entry hi hcrash hcalls hrest ihcalls ihrest =>
    have hsame₁ := eq_of_between hcalls.objects_grow hrest.objects_grow hsame
    exact .entry hi hcrash (ihcalls hsame₁) (ihrest (hsame.trans hsame₁.symm))
  | noRequests => exact .noRequests
  | @request req _ _ o₁ _ _ hfault hround hrest ihround ihrest =>
    have hadd : o₁.objects <+: (o₁.add req.added).objects := by
      rw [Outline.objects_add]
      exact List.prefix_append _ _
    have hsame₁ := eq_of_between hround.objects_grow (hadd.trans hrest.objects_grow) hsame
    have hsame₂ := eq_of_between (hround.objects_grow.trans hadd) hrest.objects_grow hsame
    have hadds : req.AddsNoObject := by
      rw [Outline.objects_add, hsame₁] at hsame₂
      exact Request.addsNoObject_iff.2 (List.append_right_eq_self.1 hsame₂)
    exact .request hadds hfault (ihround hsame₁) (ihrest (hsame.trans hsame₂.symm))

end Objects

end FwupdPoc
