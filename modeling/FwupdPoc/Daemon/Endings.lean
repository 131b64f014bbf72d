import FwupdPoc.Daemon.Reentrancy
import FwupdPoc.Daemon.Runs
import FwupdPoc.Lib.Fuel

/-!
# How runs of the daemon end

A trigger reads the length of the registry anew for each listener, so listeners that are added
during its calls make it longer, and one during each of whose calls a listener is added never
returns (`handle_ne_ok_of_adds`). If only finitely many calls are disturbed, every run ends, though
(`run_settles`): the registry grows during calls that may be disturbed only, and a loop over a list
ends if extending the list uses up a potential. The number of such calls that are still to come
bounds the nesting of transactions as well, so the induction is on it.

Where nothing arrives during calls, it can be told from the requests whether the process is still
alive behind them (`serve_survives_iff`).
-/

namespace FwupdPoc

open Fuel

variable {platform : DaemonPlatform} {nested : Nat → List Request} {bound : Nat}

/-! ## Finitely many disturbances -/

/-- Nothing arrives during the calls from number `bound` on. -/
def QuietFrom (nested : Nat → List Request) (bound : Nat) : Prop := ∀ n ≥ bound, nested n = []

/-- How many calls that may be disturbed are still to come. -/
def disturbable (bound : Nat) (s : PocDaemon) : Nat := bound - s.sent.length

/-- No calls are taken back, and a registry that has grown has used up calls that may be
disturbed. -/
structure Advances (bound : Nat) (s s' : PocDaemon) : Prop where
  sent : s.sent.length ≤ s'.sent.length
  spent : s'.listenerArray.length ≠ s.listenerArray.length →
    disturbable bound s' < disturbable bound s

theorem Advances.refl (bound : Nat) (s : PocDaemon) : Advances bound s s :=
  ⟨Nat.le_refl _, fun h => absurd rfl h⟩

theorem Advances.disturbable_le {s s' : PocDaemon} (h : Advances bound s s') :
    disturbable bound s' ≤ disturbable bound s := Nat.sub_le_sub_left h.sent bound

theorem Advances.trans {s s₁ s' : PocDaemon} (h : Advances bound s s₁)
    (h' : Advances bound s₁ s') : Advances bound s s' := by
  refine ⟨Nat.le_trans h.sent h'.sent, fun hgrown => ?_⟩
  by_cases hfirst : s₁.listenerArray.length = s.listenerArray.length
  · exact Nat.lt_of_lt_of_le (h'.spent (hfirst ▸ hgrown)) h.disturbable_le
  · exact Nat.lt_of_le_of_lt h'.disturbable_le (h.spent hfirst)

/-- What the daemon does with requests never takes calls back. -/
theorem answerAll_sent {fuel : Nat} {reqs : List Request} {s s' : PocDaemon}
    (hrun : answerAll (fun req s => handle platform nested fuel req s) reqs s = .ok s') :
    s.sent.length ≤ s'.sent.length := by
  obtain ⟨new, hnew⟩ := answerAll_extends (handle_answersExtend platform nested fuel) hrun
  rw [hnew.sent, List.length_append]
  exact Nat.le_add_right _ _

/-- The state in which the daemon waits for the reply to a call. -/
def PocDaemon.waiting (platform : DaemonPlatform) (s : PocDaemon) (call : Call) : PocDaemon :=
  { s with sent := s.sent ++ [(call, platform.status s.sent.length)] }

@[simp] theorem PocDaemon.length_sent_waiting (s : PocDaemon) (call : Call) :
    (s.waiting platform call).sent.length = s.sent.length + 1 := by
  simp [PocDaemon.waiting]

theorem transactSyncReply_eq (fuel : Nat) (call : Call) (s : PocDaemon) :
    transactSyncReply platform nested (fun req s => handle platform nested fuel req s) call s =
      answerAll (fun req s => handle platform nested fuel req s) (nested s.sent.length)
        (s.waiting platform call) := rfl

/-- A call advances: the registry is as it was if the call may not be disturbed. -/
theorem transactSyncReply_advances (hquiet : QuietFrom nested bound) {fuel : Nat} {call : Call}
    {s s' : PocDaemon}
    (hrun : transactSyncReply platform nested (fun req s => handle platform nested fuel req s)
      call s = .ok s') : Advances bound s s' := by
  rw [transactSyncReply_eq] at hrun
  have hsent := answerAll_sent hrun
  rw [PocDaemon.length_sent_waiting] at hsent
  refine ⟨Nat.le_of_succ_le hsent, fun hgrown => ?_⟩
  rcases Nat.lt_or_ge s.sent.length bound with hlt | hge
  · unfold disturbable
    omega
  · rw [hquiet _ hge] at hrun
    cases hrun
    exact absurd rfl hgrown

section Smaller

variable {limit : Nat}

/-- The induction hypothesis: transactions end where fewer calls may be disturbed. -/
def SmallerEnd (platform : DaemonPlatform) (nested : Nat → List Request) (bound limit : Nat) :
    Prop :=
  ∀ req s, disturbable bound s < limit →
    Ends Fault.outOfFuel (fun fuel => handle platform nested fuel req s) fun _ => True

theorem answerAll_ends (hsmaller : SmallerEnd platform nested bound limit) :
    ∀ (reqs : List Request) (s : PocDaemon), disturbable bound s < limit →
      Ends Fault.outOfFuel
        (fun fuel => answerAll (fun req s => handle platform nested fuel req s) reqs s)
        fun _ => True
  | [], s, _ => Ends.ok trivial
  | req :: rest, s, hs => by
    have hreq := (hsmaller req s hs).and (R := fun result => s.sent.length ≤ result.2.sent.length)
      fun fuel result hrun => by
        have hone : answerAll (fun req s => handle platform nested fuel req s) [req] s =
            .ok result.2 := answerAll_cons.2 ⟨result.1, result.2, hrun, rfl⟩
        exact answerAll_sent hone
    refine hreq.bind (g := fun fuel result =>
      answerAll (fun req s => handle platform nested fuel req s) rest result.2) ?_ ?_ ?_
    · intro fuel result hrun
      rw [answerAll, hrun]
    · intro fuel fault hrun
      rw [answerAll, hrun]
    · rintro ⟨reply, s₁⟩ ⟨-, hsent⟩
      exact answerAll_ends hsmaller rest s₁ (Nat.lt_of_le_of_lt (Nat.sub_le_sub_left hsent _) hs)

theorem transactSyncReply_ends (hquiet : QuietFrom nested bound)
    (hsmaller : SmallerEnd platform nested bound limit) (call : Call) {s : PocDaemon}
    (hs : disturbable bound s ≤ limit) :
    Ends Fault.outOfFuel (fun fuel => transactSyncReply platform nested
      (fun req s => handle platform nested fuel req s) call s) (Advances bound s) := by
  have hends : Ends Fault.outOfFuel (fun fuel => transactSyncReply platform nested
      (fun req s => handle platform nested fuel req s) call s) fun _ => True := by
    simp only [transactSyncReply_eq]
    rcases Nat.lt_or_ge s.sent.length bound with hlt | hge
    · refine answerAll_ends hsmaller _ _ (Nat.lt_of_lt_of_le ?_ hs)
      unfold disturbable
      rw [PocDaemon.length_sent_waiting]
      omega
    · rw [hquiet _ hge]
      exact Ends.ok trivial
  exact (hends.and fun fuel s' hrun => transactSyncReply_advances hquiet hrun).mono
    fun _ h => h.2

theorem runActions_ends (hquiet : QuietFrom nested bound)
    (hsmaller : SmallerEnd platform nested bound limit) (transaction : Nat)
    (target : Option Remote) :
    ∀ (actions : List Action) (freed : List Nat) (s : PocDaemon), disturbable bound s ≤ limit →
      Ends Fault.outOfFuel (fun fuel => runActions platform (transactSyncReply platform nested
        fun req s => handle platform nested fuel req s) transaction target actions freed s)
        (Advances bound s)
  | [], _, s, _ => Ends.ok (Advances.refl bound s)
  | .send code payload :: rest, freed, s, hs => by
    by_cases hnull : target = none
    · simp only [runActions, if_pos hnull]
      exact runActions_ends hquiet hsmaller transaction target rest freed s hs
    refine (transactSyncReply_ends hquiet hsmaller ⟨transaction, target, code, payload⟩ hs).bind
      (g := fun fuel s₁ => runActions platform (transactSyncReply platform nested
        fun req s => handle platform nested fuel req s) transaction target rest freed s₁) ?_ ?_ ?_
    · intro fuel s₁ hrun
      rw [runActions, if_neg hnull, hrun]
    · intro fuel fault hrun
      rw [runActions, if_neg hnull, hrun]
    · intro s₁ hfirst
      have hrest := runActions_ends hquiet hsmaller transaction target rest freed s₁
        (Nat.le_trans hfirst.disturbable_le hs)
      exact hrest.mono fun s' hs' => hfirst.trans hs'
  | .free buffer :: rest, freed, s, hs => by
    simp only [runActions]
    split
    · exact Ends.error (by simp)
    · exact runActions_ends hquiet hsmaller transaction target rest _ s hs
  | .assign :: rest, freed, s, hs => by
    simp only [runActions]
    split
    · exact Ends.error (by simp)
    · exact runActions_ends hquiet hsmaller transaction target rest freed s hs

/-- A round ends: its body uses up calls that may be disturbed where it extends the registry. -/
theorem forListeners_ends (hquiet : QuietFrom nested bound)
    (hsmaller : SmallerEnd platform nested bound limit) (transaction : Nat)
    (actions : Nat → List Action) {s : PocDaemon} (hs : disturbable bound s ≤ limit) :
    Ends Fault.outOfFuel (fun fuel => forListeners platform (transactSyncReply platform nested
      fun req s => handle platform nested fuel req s) transaction actions fuel s)
      fun _ => True := by
  have hspends : Spends Fault.outOfFuel PocDaemon.listenerArray (disturbable bound) limit
      fun fuel => listenerBody platform (transactSyncReply platform nested
        fun req s => handle platform nested fuel req s) transaction actions := by
    intro i target s hs
    simp only [listenerBody]
    split
    · exact Ends.error (by simp)
    · exact (runActions_ends hquiet hsmaller transaction target (actions i) [] s hs).mono
        fun s' h => ⟨h.disturbable_le, h.spent⟩
  exact (Ends.forEntries hspends 0 s hs).mono fun _ _ => trivial

/-- A transaction without a loop does not depend on the calls or on fuel. -/
theorem handleCallsCb_congr {transact transact' : Transact} {fuel fuel' : Nat} {req : Request}
    {s : PocDaemon} (h : req.round (platform.library s.received) = none) :
    handleCallsCb platform transact fuel req s = handleCallsCb platform transact' fuel' req s := by
  cases hmethod : req.method with
  | none =>
    by_cases hiface : req.iface = none
    · simp [handleCallsCb, hiface]
    · rw [handleCallsCb_of_no_method hmethod hiface, handleCallsCb_of_no_method hmethod hiface]
  | some method =>
    rw [handleCallsCb_of_method hmethod, handleCallsCb_of_method hmethod]
    cases method with
    | triggerChange | triggerDeviceAdded => simp [Request.round, hmethod, roundActions] at h
    | _ => rfl

/-- The process never dies of the model's fault by itself. -/
theorem Request.fault_ne_outOfFuel {lib : Library} {req : Request} :
    req.fault lib ≠ some .outOfFuel := by
  unfold Request.fault
  split
  · simp
  · split
    · simp
    · split <;> simp

theorem handleCallsCb_ends (hquiet : QuietFrom nested bound)
    (hsmaller : SmallerEnd platform nested bound limit) (req : Request) {s : PocDaemon}
    (hs : disturbable bound s ≤ limit) :
    Ends Fault.outOfFuel (fun fuel => handleCallsCb platform (transactSyncReply platform nested
      fun req s => handle platform nested fuel req s) fuel req s) fun _ => True := by
  cases hround : req.round (platform.library s.received) with
  | none =>
    refine ⟨handleCallsCb platform (transactAlone platform) 0 req s, 0,
      fun fuel _ => handleCallsCb_congr hround, ?_⟩
    rcases handleCallsCb_of_no_round (transactAlone platform) 0 hround with
      ⟨fault, hfault, hrun⟩ | ⟨-, answer, hrun, -⟩
    · rw [hrun]
      rintro rfl
      exact Request.fault_ne_outOfFuel hfault
    · rw [hrun]
      trivial
  | some actions =>
    have hentered : disturbable bound s.enter ≤ limit := hs
    refine (forListeners_ends hquiet hsmaller s.received actions hentered).bind
      (g := fun _ s' => .ok (noReply, s')) ?_ ?_ fun _ _ => Ends.ok trivial
    · intro fuel s' hrun
      rw [handleCallsCb_of_round hround, hrun]
      rfl
    · intro fuel fault hrun
      rw [handleCallsCb_of_round hround, hrun]
      rfl

end Smaller

/-- A transaction ends. -/
theorem handle_ends (hquiet : QuietFrom nested bound) :
    ∀ (limit : Nat) (req : Request) (s : PocDaemon), disturbable bound s ≤ limit →
      Ends Fault.outOfFuel (fun fuel => handle platform nested fuel req s) fun _ => True := by
  intro limit
  induction limit with
  | zero =>
    intro req s hs
    have hsmaller : SmallerEnd platform nested bound 0 := fun _ _ h => absurd h (Nat.not_lt_zero _)
    exact Ends.succ (handleCallsCb_ends hquiet hsmaller req hs)
  | succ limit ih =>
    intro req s hs
    have hsmaller : SmallerEnd platform nested bound (limit + 1) :=
      fun req s h => ih req s (Nat.le_of_lt_succ h)
    exact Ends.succ (handleCallsCb_ends hquiet hsmaller req hs)

/-- **However listeners call back, if they do so during finitely many calls only, every run of
requests ends: from some fuel on, the result is that all of them are handled, with a registry that
has only grown, or that the process has died of a fault of its own.** -/
theorem run_settles (hquiet : QuietFrom nested bound) (reqs : List Request) (s : PocDaemon) :
    ∃ result fuel₀,
      (∀ fuel ≥ fuel₀,
        answerAll (fun req s => handle platform nested fuel req s) reqs s = result) ∧
      (∀ s', result = .ok s' → s.listenerArray <+: s'.listenerArray) ∧
      result ≠ .error .outOfFuel := by
  have hends : SmallerEnd platform nested bound (disturbable bound s + 1) :=
    fun req s' hs' => handle_ends hquiet _ req s' (Nat.le_of_lt_succ hs')
  obtain ⟨result, fuel₀, hrun, hgood⟩ := answerAll_ends hends reqs s (Nat.lt_succ_self _)
  refine ⟨result, fuel₀, hrun, ?_, ?_⟩
  · rintro s' rfl
    obtain ⟨new, hnew⟩ := answerAll_extends (handle_answersExtend platform nested fuel₀)
      (hrun fuel₀ (Nat.le_refl _))
    exact hnew.listenerArray
  · rintro rfl
    exact hgood rfl

/-- A listener is added during the first call. -/
theorem run_settles_addedOnce :
    ∃ result fuel₀,
      (∀ fuel ≥ fuel₀, answerAll (fun req s => handle reliablePlatform
        (fun n => if n = 0 then [addListenerRequest 2] else []) fuel req s)
        [addListenerRequest 1, triggerChangeRequest] .start = result) ∧
      (∀ s', result = .ok s' → [] <+: s'.listenerArray) ∧
      result ≠ .error .outOfFuel := by
  have hquiet : QuietFrom (fun n => if n = 0 then [addListenerRequest 2] else []) 1 := by
    intro n hn
    exact if_neg (Nat.ne_of_gt hn)
  exact run_settles hquiet [addListenerRequest 1, triggerChangeRequest] .start

/-! ## Runs without disturbances -/

/-- The listener that a request adds is not called for it. -/
theorem Request.deliveries_append_added (req : Request) (listeners : List (Option Remote)) :
    req.deliveries (listeners ++ req.added) = req.deliveries listeners := by
  by_cases hadd : req.method = some .addListener
  · have hevents : req.events = [] := by
      rw [Request.events, hadd]
      rfl
    rw [Request.deliveries_of_no_events hevents, Request.deliveries_of_no_events hevents]
  · have hadded : req.added = [] := if_neg hadd
    rw [hadded, List.append_nil]

/-- What a transaction that nothing disturbs and that returns has done. -/
theorem handle_alone_served {fuel : Nat} {req : Request} {s s' : PocDaemon} {answer : Answer}
    (hrun : handle platform (fun _ => []) fuel req s = .ok (answer, s')) : Served s s' [req] := by
  cases fuel with
  | zero => cases hrun
  | succ fuel =>
    rw [handle_alone] at hrun
    obtain ⟨-, -, s₁, hcalls, rfl⟩ := handleCallsCb_sound transactAlone_grows hrun
    obtain ⟨s₂, hcalls', hregistry, hreceived, hsent⟩ := sendAll_transactAlone platform
      (req.calls (platform.library s.received) s.received (s₁.add req.added).listenerArray) s.enter
    cases hcalls.symm.trans hcalls'
    refine ⟨?_, ?_, ?_⟩
    · rw [PocDaemon.add_listenerArray, hregistry, List.flatMap_singleton]
      rfl
    · rw [PocDaemon.add_received, hreceived]
      rfl
    · have hcallsSent : (s₁.add req.added).calls = s₁.calls := rfl
      have hentered : s.enter.calls = s.calls := rfl
      rw [hcallsSent, hsent, tagged_calls, PocDaemon.add_listenerArray, hregistry,
        PocDaemon.enter_listenerArray, Request.deliveries_append_added, hentered]
      simp [requestedCalls]

/-- What it has done to the registry and to the number of transactions. -/
theorem handle_alone_registry {fuel : Nat} {req : Request} {s s' : PocDaemon} {answer : Answer}
    (hrun : handle platform (fun _ => []) fuel req s = .ok (answer, s')) :
    s'.received = s.received + 1 ∧ s'.listenerArray = s.listenerArray ++ req.added := by
  have hserved := handle_alone_served hrun
  refine ⟨hserved.received, ?_⟩
  rw [hserved.listenerArray, List.flatMap_singleton]

/-- What a run that nothing disturbs and that returns has done. -/
theorem serve_served : ∀ {reqs : List Request} {s s' : PocDaemon},
    serve platform reqs s = .ok s' → Served s s' reqs
  | [], s, s', hrun => by
    cases hrun
    exact Served.nil s
  | req :: rest, s, s', hrun => by
    obtain ⟨answer, s₁, hreq, hrest⟩ := answerAll_cons.1 hrun
    exact (handle_alone_served hreq).cons (serve_served hrest)

/-- A transaction that nothing disturbs returns exactly if it does not end the process. -/
theorem handle_alone_returns_iff (req : Request) (s : PocDaemon) :
    (∃ result, handle platform (fun _ => []) (s.listenerArray.length + 2) req s = .ok result) ↔
      ¬ req.Crashes platform (platform.library s.received) s.listenerArray := by
  refine ⟨fun ⟨⟨answer, s'⟩, hrun⟩ => ?_, fun hcrash => ?_⟩
  · have hregistry := (handle_alone_registry hrun).2
    rw [handle_alone] at hrun
    obtain ⟨-, hcrash, -⟩ := handleCallsCb_sound transactAlone_grows hrun
    rw [hregistry] at hcrash
    rintro (hfault | ⟨target, hmem, hstops⟩)
    · exact hcrash (.inl hfault)
    · exact hcrash (.inr ⟨target, List.mem_append_left _ hmem, hstops⟩)
  · obtain ⟨s₁, hcalls, hsame, -, -⟩ := sendAll_transactAlone platform
      (req.calls (platform.library s.received) s.received s.listenerArray) s.enter
    obtain ⟨answer, hrun⟩ :=
      handleCallsCb_complete transactAlone_grows (Nat.lt_succ_self _) hcrash hcalls hsame
    rw [handle_alone]
    exact ⟨_, hrun⟩

theorem serve_returns_iff : ∀ (reqs : List Request) (s : PocDaemon),
    (∃ s', serve platform reqs s = .ok s') ↔
      ∀ (i : Nat) (req : Request), reqs[i]? = some req →
        ¬ req.Crashes platform (platform.library (s.received + i))
          (s.listenerArray ++ (reqs.take i).flatMap Request.added)
  | [], s => by
    refine ⟨fun _ i req hi => ?_, fun _ => ⟨s, rfl⟩⟩
    cases hi
  | req :: rest, s => by
    refine ⟨fun ⟨s', hrun⟩ i r hi => ?_, fun hcrash => ?_⟩
    · obtain ⟨answer, s₁, hreq, hrest⟩ := answerAll_cons.1 hrun
      obtain ⟨hreceived, hregistry⟩ := handle_alone_registry hreq
      cases i with
      | zero =>
        cases hi
        have hfirst := (handle_alone_returns_iff req s).1 ⟨_, hreq⟩
        simpa using hfirst
      | succ i =>
        have hlater := (serve_returns_iff rest s₁).1 ⟨s', hrest⟩ i r hi
        rw [hreceived, hregistry, List.append_assoc, ← List.flatMap_cons] at hlater
        rw [List.take_succ_cons, ← Nat.add_assoc, Nat.add_right_comm]
        exact hlater
    · have hfirst := hcrash 0 req rfl
      rw [Nat.add_zero, List.take_zero, List.flatMap_nil, List.append_nil] at hfirst
      obtain ⟨⟨answer, s₁⟩, hreq⟩ := (handle_alone_returns_iff req s).2 hfirst
      obtain ⟨hreceived, hregistry⟩ := handle_alone_registry hreq
      obtain ⟨s', hrest⟩ := (serve_returns_iff rest s₁).2 fun i r hi => by
        have hlater := hcrash (i + 1) r hi
        rw [List.take_succ_cons, ← Nat.add_assoc, Nat.add_right_comm] at hlater
        rw [hreceived, hregistry, List.append_assoc, ← List.flatMap_cons]
        exact hlater
      exact ⟨s', answerAll_cons.2 ⟨answer, s₁, hreq, hrest⟩⟩

/-- **The daemon survives the runs in which no request ends it, over the registry of the listeners
added before: it dies of a request without an interface, of a library failure in `GET_STRING` or
`GET_BUNDLE`, of a `TRIGGER_CHANGE` behind an `ADD_LISTENER` without an object unless libgbinder
tolerates a NULL client, of a `TRIGGER_DEVICE_ADDED` behind one in any case, and, with a checked
heap, of the first `TRIGGER_DEVICE_ADDED` behind any `ADD_LISTENER`.** -/
theorem serve_survives_iff (reqs : List Request) :
    (∃ s, serve platform reqs .start = .ok s) ↔
      ∀ (i : Nat) (req : Request), reqs[i]? = some req →
        ¬ req.Crashes platform (platform.library i) ((reqs.take i).flatMap Request.added) := by
  have h := @serve_returns_iff platform reqs .start
  simpa only [PocDaemon.start, Nat.zero_add, List.nil_append] using h

end FwupdPoc
