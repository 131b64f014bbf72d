import FwupdPoc.Daemon.Rounds

/-!
# Runs of the daemon

Transactions handled one after the other, from the empty registry of `start_service`. The registry
is the list of the objects of the `ADD_LISTENER` requests so far, and the calls made are those each
request asks for, to the registry at its time, whatever becomes of the calls themselves
(`serve_delivers`). A run stops early only where one of the two library calls fails whose outcome
the code cannot survive.
-/

namespace FwupdPoc

variable {platform : DaemonPlatform}

/-- `start_service`. -/
def PocDaemon.start : PocDaemon := ⟨[], 0, []⟩

/-- Handles requests one after the other, where nothing arrives while the daemon waits for a reply.
-/
def serve (platform : DaemonPlatform) : List Request → PocDaemon → Except Fault PocDaemon :=
  answerAll fun req s => handle platform (fun _ => []) (s.listenerArray.length + 2) req s

/-- A call with the number of the transaction it is made for. -/
def Call.tagged (call : Call) : Nat × Option Remote × ListenerTransaction :=
  (call.transaction, call.event)

/-- The calls sent so far. -/
def PocDaemon.calls (s : PocDaemon) : List (Nat × Option Remote × ListenerTransaction) :=
  s.sent.map fun call => call.1.tagged

/-- The calls that requests ask for, from a transaction number and a registry on. -/
def requestedCalls :
    Nat → List (Option Remote) → List Request → List (Nat × Option Remote × ListenerTransaction)
  | _, _, [] => []
  | transaction, listeners, req :: rest =>
    (req.deliveries listeners).map (Prod.mk transaction) ++
      requestedCalls (transaction + 1) (listeners ++ req.added) rest

/-- The library calls of `GET_STRING` and `GET_BUNDLE` that the process does not survive, and how it
ends. -/
def Request.LibraryFails (lib : Library) (req : Request) (fault : Fault) : Prop :=
  (req.method = some .getString ∧ lib.variantError ∧ fault = .gError) ∨
    (req.method = some .getBundle ∧ lib.bundleIsNull ∧ fault = .nullBundle)

theorem Request.libraryFails_of_fault {lib : Library} {req : Request} {fault : Fault}
    (hservice : req.iface = some serviceIface) (h : req.fault lib = some fault) :
    req.LibraryFails lib fault := by
  rw [Request.fault, hservice, if_neg (Option.some_ne_none _)] at h
  split at h
  · rename_i hstring
    exact .inl ⟨hstring.1, hstring.2, (Option.some.inj h).symm⟩
  · split at h
    · rename_i hbundle
      exact .inr ⟨hbundle.1, hbundle.2, (Option.some.inj h).symm⟩
    · cases h

/-! ## One request -/

/-- What requests do to the daemon. -/
structure Served (s s' : PocDaemon) (reqs : List Request) : Prop where
  listenerArray : s'.listenerArray = s.listenerArray ++ reqs.flatMap Request.added
  received : s'.received = s.received + reqs.length
  calls : s'.calls = s.calls ++ requestedCalls s.received s.listenerArray reqs

theorem Served.nil (s : PocDaemon) : Served s s [] := ⟨by simp, rfl, by simp [requestedCalls]⟩

theorem Served.cons {s s₁ s' : PocDaemon} {req : Request} {rest : List Request}
    (h : Served s s₁ [req]) (h' : Served s₁ s' rest) : Served s s' (req :: rest) := by
  have hregistry : s₁.listenerArray = s.listenerArray ++ req.added := by simpa using h.listenerArray
  refine ⟨?_, ?_, ?_⟩
  · rw [h'.listenerArray, hregistry, List.flatMap_cons, List.append_assoc]
  · rw [h'.received, h.received, List.length_singleton, List.length_cons]
    omega
  · rw [h'.calls, h.calls, h.received, hregistry]
    simp [requestedCalls]

/-- Calls that nothing answers to are sent in order. -/
theorem sendAll_transactAlone (platform : DaemonPlatform) : ∀ (calls : List Call) (s : PocDaemon),
    ∃ s', sendAll (transactAlone platform) calls s = .ok s' ∧
      s'.listenerArray = s.listenerArray ∧ s'.received = s.received ∧
      s'.calls = s.calls ++ calls.map Call.tagged
  | [], s => ⟨s, rfl, rfl, rfl, by simp⟩
  | call :: rest, s => by
    obtain ⟨s', hrest, hregistry, hreceived, hcalls⟩ := sendAll_transactAlone platform rest
      { s with sent := s.sent ++ [(call, platform.status s.sent.length)] }
    refine ⟨s', sendAll_cons.2 ⟨_, rfl, hrest⟩, hregistry, hreceived, ?_⟩
    rw [hcalls]
    simp [PocDaemon.calls]

theorem transactAlone_grows : Grows (transactAlone platform) := by
  intro call s s' h
  cases h
  exact List.prefix_refl _

/-- The calls of a request, with its number, are the deliveries it asks for. -/
theorem tagged_calls (lib : Library) (transaction : Nat) (listeners : List (Option Remote))
    (req : Request) :
    (req.calls lib transaction listeners).map Call.tagged =
      (req.deliveries listeners).map (Prod.mk transaction) := by
  rw [← Request.event_calls lib transaction, List.map_map]
  refine List.map_congr_left fun call hcall => ?_
  rw [Call.tagged, Request.transaction_of_mem_calls hcall]
  rfl

theorem handle_alone {fuel : Nat} {req : Request} {s : PocDaemon} :
    handle platform (fun _ => []) (fuel + 1) req s =
      handleCallsCb platform (transactAlone platform) fuel req s := by
  rw [handle, transactSyncReply_nil]

/-- One request, over a registry without NULL. -/
theorem handle_served (hheap : platform.heapChecked = false) {req : Request} {s : PocDaemon}
    (hservice : req.iface = some serviceIface) (hnull : none ∉ s.listenerArray) :
    (∃ answer s', handle platform (fun _ => []) (s.listenerArray.length + 2) req s =
        .ok (answer, s') ∧ Served s s' [req]) ∨
      ∃ fault, req.LibraryFails (platform.library s.received) fault ∧
        handle platform (fun _ => []) (s.listenerArray.length + 2) req s = .error fault := by
  rw [handle_alone]
  by_cases hfault : req.fault (platform.library s.received) = none
  · have hcrash : ¬ req.Crashes platform (platform.library s.received) s.listenerArray := by
      rintro (h | ⟨target, hmem, ⟨-, rfl, -⟩ | ⟨-, rfl | hchecked⟩⟩)
      · exact h hfault
      · exact hnull hmem
      · exact hnull hmem
      · cases hheap.symm.trans hchecked
    obtain ⟨s₁, hcalls, hregistry, hreceived, hsent⟩ := sendAll_transactAlone platform
      (req.calls (platform.library s.received) s.received s.listenerArray) s.enter
    obtain ⟨answer, hrun⟩ := handleCallsCb_complete transactAlone_grows (Nat.lt_succ_self _) hcrash
      hcalls hregistry
    refine .inl ⟨answer, _, hrun, by simp [hregistry], by simp [hreceived], ?_⟩
    rw [tagged_calls] at hsent
    simpa [requestedCalls, PocDaemon.calls] using hsent
  · obtain ⟨fault, hsome⟩ := Option.ne_none_iff_exists'.1 hfault
    exact .inr
      ⟨fault, Request.libraryFails_of_fault hservice hsome, handleCallsCb_of_fault hsome⟩

/-! ## Whole runs -/

/-- A run ends at a library failure, behind requests that have been served. -/
structure EndsAtLibrary (platform : DaemonPlatform) (reqs : List Request) (s s' : PocDaemon)
    (served : List Request) (req : Request) (rest : List Request) (fault : Fault) : Prop where
  split : reqs = served ++ req :: rest
  returned : serve platform served s = .ok s'
  served : Served s s' served
  fails : req.LibraryFails (platform.library s'.received) fault
  died : serve platform reqs s = .error fault

/-- A run over requests for the service, each `ADD_LISTENER` with an object, from a registry without
NULL: every request is served, or the process ends at a library failure. -/
theorem serve_from (hheap : platform.heapChecked = false) :
    ∀ (reqs : List Request) (s : PocDaemon),
      (∀ req ∈ reqs, req.iface = some serviceIface) →
      (∀ req ∈ reqs, req.method = some .addListener → req.object ≠ none) →
      none ∉ s.listenerArray →
      (∃ s', serve platform reqs s = .ok s' ∧ Served s s' reqs) ∨
        ∃ s' served req rest fault, EndsAtLibrary platform reqs s s' served req rest fault
  | [], s, _, _, _ => .inl ⟨s, rfl, Served.nil s⟩
  | req :: rest, s, hservice, hobject, hnull => by
    rcases handle_served hheap (hservice req List.mem_cons_self) hnull with
      ⟨answer, s₁, hrun, hserved⟩ | ⟨fault, hfails, hrun⟩
    · have hnull₁ : none ∉ s₁.listenerArray := by
        have hadded : none ∉ req.added := by
          rw [Request.added]
          split
          · have := hobject req List.mem_cons_self ‹_›
            simpa using this.symm
          · simp
        simp [hserved.listenerArray, hnull, hadded]
      rcases serve_from hheap rest s₁ (fun r hr => hservice r (List.mem_cons_of_mem _ hr))
          (fun r hr => hobject r (List.mem_cons_of_mem _ hr)) hnull₁ with
        ⟨s', hrest, hserved'⟩ | ⟨s', served, req', rest', fault, hend⟩
      · exact .inl ⟨s', answerAll_cons.2 ⟨answer, s₁, hrun, hrest⟩, hserved.cons hserved'⟩
      · refine .inr ⟨s', req :: served, req', rest', fault, ?_, ?_, ?_, hend.fails, ?_⟩
        · rw [hend.split, List.cons_append]
        · exact answerAll_cons.2 ⟨answer, s₁, hrun, hend.returned⟩
        · exact hserved.cons hend.served
        · rw [serve, answerAll, hrun]
          exact hend.died
    · refine .inr ⟨s, [], req, rest, fault, rfl, rfl, Served.nil s, hfails, ?_⟩
      rw [serve, answerAll, hrun]

/-- After each step of a run, the registry is the list of the objects of the `ADD_LISTENER` requests
so far and the calls sent are those the requests so far ask for, unless the process has ended at a
library failure; then this was so before the request that it ended at. -/
theorem serve_delivers (hheap : platform.heapChecked = false) (reqs : List Request)
    (hservice : ∀ req ∈ reqs, req.iface = some serviceIface)
    (hobject : ∀ req ∈ reqs, req.method = some .addListener → req.object ≠ none)
    (before : List Request) (hbefore : before <+: reqs) :
    (∃ s, serve platform before .start = .ok s ∧
        s.listenerArray = before.flatMap Request.added ∧
        s.calls = requestedCalls 0 [] before) ∨
      ∃ served req rest s fault, before = served ++ req :: rest ∧
        serve platform served .start = .ok s ∧
        s.listenerArray = served.flatMap Request.added ∧
        s.calls = requestedCalls 0 [] served ∧
        req.LibraryFails (platform.library served.length) fault ∧
        serve platform before .start = .error fault := by
  rcases serve_from hheap before .start (fun req hreq => hservice req (hbefore.subset hreq))
      (fun req hreq => hobject req (hbefore.subset hreq)) (by simp [PocDaemon.start]) with
    ⟨s, hrun, hserved⟩ | ⟨s, served, req, rest, fault, hend⟩
  · exact .inl ⟨s, hrun, hserved.listenerArray, hserved.calls⟩
  · have hnumber : s.received = served.length := by
      rw [hend.served.received, PocDaemon.start, Nat.zero_add]
    exact .inr ⟨served, req, rest, s, fault, hend.split, hend.returned, hend.served.listenerArray,
      hend.served.calls, hnumber ▸ hend.fails, hend.died⟩

/-- A listener that is registered twice, where all calls and marshals fail. -/
theorem serve_delivers_failing :
    let lib : Library := ⟨fun _ => statusOk, false, false, fun _ => -1⟩
    let platform : DaemonPlatform := ⟨false, false, fun _ => lib, fun _ => -1⟩
    let add : Request := ⟨some serviceIface, 16, none, none, some 1⟩
    ∃ s, serve platform [add, add, ⟨some serviceIface, 18, none, none, none⟩] .start = .ok s ∧
      s.listenerArray = [some 1, some 1] ∧
      s.calls = [(2, some 1, .onChanged), (2, some 1, .onParams), (2, some 1, .onBundles),
        (2, some 1, .onChanged), (2, some 1, .onParams), (2, some 1, .onBundles)] := by
  intro lib platform add
  have hheap : platform.heapChecked = false := rfl
  rcases serve_delivers hheap
      [add, add, ⟨some serviceIface, 18, none, none, none⟩] (by simp [add])
      (by simp [add, Request.method, PocTransaction.ofCode]) _ (List.prefix_refl _) with
    ⟨s, hrun, hregistry, hcalls⟩ | ⟨_, _, _, _, _, -, -, -, -, hfails, -⟩
  · exact ⟨s, hrun, hregistry, hcalls⟩
  · -- neither library call fails
    rcases hfails with ⟨-, herror, -⟩ | ⟨-, hnull, -⟩
    · cases herror
    · cases hnull

end FwupdPoc
