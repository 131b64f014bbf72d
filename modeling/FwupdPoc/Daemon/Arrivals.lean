import FwupdPoc.Daemon.Reentrancy
import FwupdPoc.Daemon.Runs

/-!
# What arrives during calls

A run of the daemon in which further transactions reach the handler while it waits for listeners. A
`History` lists the transactions by their numbers, each with the registry it left. `Started` says in
which order requests get these numbers: one that arrives during a call comes behind the one that the
call is made for, and before those that are started when the call has returned. `Accounts` relates a
history to the states before and behind the run: the registry has grown by what its requests add, in
its order, and the calls made for a transaction are those its request asks for over the registry it
left, whole and in order.

The parts of a run are joined by `Accounts.trans`; a call with what arrives during it is
`Accounts.call`, and a transaction around its calls `Accounts.transaction`. The induction is that of
the handler, on the depth of nested transactions (`handle_accounts`).
-/

namespace FwupdPoc

variable {platform : DaemonPlatform} {nested : Nat → List Request}
  {answer : Request → PocDaemon → Except Fault (Answer × PocDaemon)}

/-! ## Histories -/

/-- A transaction that has been handled: its request, and the registry it left. -/
structure Handled where
  request : Request
  registry : List (Option Remote)

/-- The transactions of a run, in the order of their numbers. -/
abbrev History := List Handled

/-- The requests of a history. -/
def History.requests (history : History) : List Request := history.map Handled.request

@[simp] theorem History.requests_nil : History.requests [] = [] := rfl

@[simp] theorem History.requests_cons (handled : Handled) (history : History) :
    History.requests (handled :: history) = handled.request :: History.requests history := rfl

@[simp] theorem History.requests_append (history history' : History) :
    History.requests (history ++ history') =
      History.requests history ++ History.requests history' := List.map_append

/-- A request with the number of its calls. -/
def Handled.asked (handled : Handled) : Request × Nat :=
  (handled.request, (handled.request.deliveries handled.registry).length)

/-- What is pending starts these requests, in this order, each with the number of its calls. The
numbers are those of the calls sent before and after. -/
inductive Started (nested : Nat → List Request) :
    Pending → Nat → List (Request × Nat) → Nat → Prop where
  | noCalls {sent : Nat} : Started nested (.calls 0) sent [] sent
  | call {n sent sent₁ sent' : Nat} {started started' : List (Request × Nat)} :
    Started nested (.requests (nested sent)) (sent + 1) started sent₁ →
    Started nested (.calls n) sent₁ started' sent' →
    Started nested (.calls (n + 1)) sent (started ++ started') sent'
  | noRequests {sent : Nat} : Started nested (.requests []) sent [] sent
  | request {req : Request} {rest : List Request} {n sent sent₁ sent' : Nat}
      {started started' : List (Request × Nat)} :
    Started nested (.calls n) sent started sent₁ →
    Started nested (.requests rest) sent₁ started' sent' →
    Started nested (.requests (req :: rest)) sent ((req, n) :: started ++ started') sent'

/-- The requests that arrive during `count` calls, from call number `first` on. -/
def arrivals (nested : Nat → List Request) (first count : Nat) : List Request :=
  (List.range' first count).flatMap nested

@[simp] theorem arrivals_zero (first : Nat) : arrivals nested first 0 = [] := rfl

theorem arrivals_succ (first count : Nat) :
    arrivals nested first (count + 1) = nested first ++ arrivals nested (first + 1) count := by
  rw [arrivals, List.range'_succ, List.flatMap_cons, arrivals]

theorem arrivals_add (first count count' : Nat) :
    arrivals nested first (count + count') =
      arrivals nested first count ++ arrivals nested (first + count) count' := by
  rw [arrivals, ← List.range'_append_1, List.flatMap_append, arrivals, arrivals]

/-! ## Accounts -/

/-- What has happened between two states: the calls `new` and the transactions `history`. The
requests `reqs` were waiting, and `older` are the calls made for transactions that arrived
before. -/
structure Accounts (platform : DaemonPlatform) (nested : Nat → List Request)
    (older : Nat → List Call) (reqs : List Request) (s s' : PocDaemon) (new : List (Call × Int))
    (history : History) : Prop where
  sent : s'.sent = s.sent ++ new
  received : s'.received = s.received + history.length
  /-- Every request is handled once, and nothing else is. -/
  requests : history.requests.Perm (reqs ++ arrivals nested s.sent.length new.length)
  registered : s'.listenerArray = s.listenerArray ++ history.requests.flatMap Request.added
  /-- The registry that a transaction leaves is at least what has been added up to it. -/
  registries : ∀ (i : Nat) (t : Handled), history[i]? = some t →
    s.listenerArray ++ (history.requests.take (i + 1)).flatMap Request.added <+: t.registry ∧
      t.registry <+: s'.listenerArray
  numbered : ∀ call ∈ new, call.1.transaction < s'.received
  older : ∀ n < s.received, ownCalls n new = older n
  calls : ∀ (i : Nat) (t : Handled), history[i]? = some t → ownCalls (s.received + i) new =
    t.request.calls (platform.library (s.received + i)) (s.received + i) t.registry

/-- No calls for older transactions. -/
def noCalls : Nat → List Call := fun _ => []

/-- Calls for one older transaction. -/
def callsFor (transaction : Nat) (calls : List Call) : Nat → List Call := fun n =>
  if n = transaction then calls else []

theorem Accounts.refl (s : PocDaemon) : Accounts platform nested noCalls [] s s [] [] where
  sent := by simp
  received := rfl
  requests := .nil
  registered := by simp
  registries := by simp
  numbered := by simp
  older := fun _ _ => rfl
  calls := by simp

/-- A permutation that sorts what two parts of a run have in common. -/
theorem perm_interchange {α : Type} (a b c d : List α) :
    ((a ++ b) ++ (c ++ d)).Perm ((a ++ c) ++ (b ++ d)) := by
  rw [List.append_assoc, List.append_assoc, List.perm_append_left_iff, ← List.append_assoc,
    ← List.append_assoc, List.perm_append_right_iff]
  exact List.perm_append_comm

/-- One part of a run behind another, where the second one makes no calls for the transactions of
the first one. -/
theorem Accounts.trans {older older' : Nat → List Call} {reqs reqs' : List Request}
    {s s₁ s' : PocDaemon} {new new' : List (Call × Int)} {history history' : History}
    (h : Accounts platform nested older reqs s s₁ new history)
    (h' : Accounts platform nested older' reqs' s₁ s' new' history')
    (hdone : ∀ n, s.received ≤ n → n < s₁.received → older' n = []) :
    Accounts platform nested (fun n => older n ++ older' n) (reqs ++ reqs') s s' (new ++ new')
      (history ++ history') where
  sent := by rw [h'.sent, h.sent, List.append_assoc]
  received := by
    rw [h'.received, h.received, List.length_append, Nat.add_assoc]
  requests := by
    have hsent : s₁.sent.length = s.sent.length + new.length := by
      rw [h.sent, List.length_append]
    rw [History.requests_append, List.length_append, arrivals_add, ← hsent]
    exact (h.requests.append h'.requests).trans (perm_interchange _ _ _ _)
  registered := by
    rw [History.requests_append, List.flatMap_append, ← List.append_assoc, ← h.registered]
    exact h'.registered
  registries := by
    intro i t hi
    have hgrows : s₁.listenerArray <+: s'.listenerArray := by
      rw [h'.registered]
      exact List.prefix_append _ _
    rw [History.requests_append]
    rcases Nat.lt_or_ge i history.length with hlt | hge
    · rw [List.getElem?_append_left hlt] at hi
      have hlength : i + 1 ≤ history.requests.length := by
        rw [History.requests, List.length_map]
        exact hlt
      rw [List.take_append_of_le_length hlength]
      exact ⟨(h.registries i t hi).1, (h.registries i t hi).2.trans hgrows⟩
    · rw [List.getElem?_append_right hge] at hi
      obtain ⟨hseen, hlast⟩ := h'.registries _ t hi
      have htake : (history.requests ++ history'.requests).take (i + 1) =
          history.requests ++ history'.requests.take (i - history.length + 1) := by
        have hlength : i + 1 = history.requests.length + (i - history.length + 1) := by
          simp only [History.requests, List.length_map]
          omega
        rw [hlength, List.take_length_add_append]
      rw [htake, List.flatMap_append, ← List.append_assoc, ← h.registered]
      exact ⟨hseen, hlast⟩
  numbered := by
    intro call hcall
    rcases List.mem_append.1 hcall with hcall | hcall
    · rw [h'.received]
      exact Nat.lt_add_right _ (h.numbered call hcall)
    · exact h'.numbered call hcall
  older := by
    intro n hn
    have hn₁ : n < s₁.received := by
      rw [h.received]
      exact Nat.lt_add_right _ hn
    rw [ownCalls_append, h.older n hn, h'.older n hn₁]
  calls := by
    intro i t hi
    rw [ownCalls_append]
    rcases Nat.lt_or_ge i history.length with hlt | hge
    · rw [List.getElem?_append_left hlt] at hi
      have hn₁ : s.received + i < s₁.received := by
        rw [h.received]
        omega
      rw [h.calls i t hi, h'.older _ hn₁, hdone _ (Nat.le_add_right _ _) hn₁, List.append_nil]
    · rw [List.getElem?_append_right hge] at hi
      have hnumber : s.received + i = s₁.received + (i - history.length) := by
        rw [h.received]
        omega
      have hnone : ownCalls (s.received + i) new = [] := ownCalls_of_others fun call hcall => by
        have := h.numbered call hcall
        omega
      rw [hnone, List.nil_append, hnumber]
      exact h'.calls _ t hi

/-- A call for an older transaction, with what arrives before its reply. -/
theorem Accounts.call {transaction : Nat} {s s₁ : PocDaemon} {call : Call} {status : Int}
    {new : List (Call × Int)} {history : History}
    (h : Accounts platform nested noCalls (nested s.sent.length)
      { s with sent := s.sent ++ [(call, status)] } s₁ new history)
    (hown : call.transaction = transaction) (hold : transaction < s.received) :
    Accounts platform nested (callsFor transaction [call]) [] s s₁ ((call, status) :: new)
      history where
  sent := by rw [h.sent, List.append_assoc, List.singleton_append]
  received := h.received
  requests := by
    have hlength : (s.sent ++ [(call, status)]).length = s.sent.length + 1 := by simp
    have hrequests := h.requests
    dsimp only at hrequests
    rwa [hlength, ← arrivals_succ] at hrequests
  registered := h.registered
  registries := h.registries
  numbered := by
    intro entry hentry
    rcases List.mem_cons.1 hentry with rfl | hentry
    · rw [h.received, hown]
      exact Nat.lt_add_right _ hold
    · exact h.numbered entry hentry
  older := by
    intro n hn
    rw [← List.singleton_append, ownCalls_append, h.older n hn, noCalls, List.append_nil, callsFor]
    split
    · rename_i hsame
      simp [ownCalls, hown, hsame]
    · rename_i hother
      simp [ownCalls, hown, Ne.symm hother]
  calls := by
    intro i t hi
    have hlater : ownCalls (s.received + i) [(call, status)] = [] :=
      ownCalls_of_others fun entry hentry => by
        cases List.mem_singleton.1 hentry
        exact Nat.ne_of_lt (Nat.lt_add_right _ (hown ▸ hold))
    rw [← List.singleton_append, ownCalls_append, hlater]
    exact h.calls i t hi

/-- What a transaction adds is in front of what is added during its calls, since one of them is
nothing. -/
theorem Accounts.added_first {older : Nat → List Call} {req : Request} {s s₁ : PocDaemon}
    {new : List (Call × Int)} {history : History}
    (h : Accounts platform nested older [] s.enter s₁ new history)
    (hadds : req.added ≠ [] → history = []) :
    (s₁.add req.added).listenerArray =
      s.listenerArray ++ req.added ++ history.requests.flatMap Request.added := by
  rw [PocDaemon.add_listenerArray, h.registered, PocDaemon.enter_listenerArray]
  by_cases hadded : req.added = []
  · rw [hadded, List.append_nil, List.append_nil]
  · rw [hadds hadded, History.requests_nil, List.flatMap_nil, List.append_nil, List.append_nil]

/-- A transaction around its calls. -/
theorem Accounts.transaction {req : Request} {s s₁ : PocDaemon} {new : List (Call × Int)}
    {history : History}
    (h : Accounts platform nested
      (callsFor s.received (req.calls (platform.library s.received) s.received
        (s₁.add req.added).listenerArray)) [] s.enter s₁ new history)
    (hadds : req.added ≠ [] → history = []) :
    Accounts platform nested noCalls [req] s (s₁.add req.added) new
      (⟨req, (s₁.add req.added).listenerArray⟩ :: history) where
  sent := h.sent
  received := by
    have hreceived := h.received
    rw [PocDaemon.enter_received] at hreceived
    rw [PocDaemon.add_received, hreceived, List.length_cons]
    omega
  requests := h.requests.cons req
  registered := by
    rw [h.added_first hadds, History.requests_cons, List.flatMap_cons, List.append_assoc]
  registries := by
    intro i t hi
    cases i with
    | zero =>
      cases hi
      refine ⟨?_, List.prefix_refl _⟩
      simp only [History.requests_cons, List.take_succ_cons, List.take_zero, List.flatMap_cons,
        List.flatMap_nil, List.append_nil, h.added_first hadds]
      exact List.prefix_append _ _
    | succ i =>
      have hhistory : history ≠ [] := by
        rintro rfl
        cases hi
      have hadded : req.added = [] := by
        by_contra hadded
        exact hhistory (hadds hadded)
      obtain ⟨hseen, hlast⟩ := h.registries i t hi
      rw [hadded, PocDaemon.add_nil, History.requests_cons, List.take_succ_cons, List.flatMap_cons,
        hadded, List.nil_append]
      exact ⟨hseen, hlast⟩
  numbered := h.numbered
  older := by
    intro n hn
    rw [h.older n (Nat.lt_succ_of_lt hn), callsFor, if_neg (Nat.ne_of_lt hn), noCalls]
  calls := by
    intro i t hi
    cases i with
    | zero =>
      cases hi
      rw [Nat.add_zero, h.older _ (Nat.lt_succ_self _), callsFor, if_pos rfl]
    | succ i =>
      have hcalls := h.calls i t hi
      rw [PocDaemon.enter_received, Nat.add_right_comm] at hcalls
      exact hcalls

/-! ## Runs -/

/-- Handling a request is accounted for. -/
def AnswersAccount (platform : DaemonPlatform) (nested : Nat → List Request)
    (answer : Request → PocDaemon → Except Fault (Answer × PocDaemon)) : Prop :=
  ∀ req s reply s', answer req s = .ok (reply, s') →
    ∃ new registry history,
      Accounts platform nested noCalls [req] s s' new (⟨req, registry⟩ :: history) ∧
      Started nested (.calls (req.deliveries registry).length) s.sent.length
        (history.map Handled.asked) s'.sent.length

theorem answerAll_accounts (h : AnswersAccount platform nested answer) :
    ∀ {reqs : List Request} {s s' : PocDaemon}, answerAll answer reqs s = .ok s' →
      ∃ new history, Accounts platform nested noCalls reqs s s' new history ∧
        Started nested (.requests reqs) s.sent.length (history.map Handled.asked) s'.sent.length
  | [], s, s', hrun => by
    cases hrun
    exact ⟨[], [], Accounts.refl s, .noRequests⟩
  | req :: rest, s, s', hrun => by
    obtain ⟨reply, s₁, hreq, hrest⟩ := answerAll_cons.1 hrun
    obtain ⟨new, registry, history, hnew, hstarted⟩ := h req s reply s₁ hreq
    obtain ⟨new', history', hnew', hstarted'⟩ := answerAll_accounts h hrest
    refine ⟨_, _, hnew.trans hnew' fun _ _ _ => rfl, ?_⟩
    rw [List.map_append]
    exact .request hstarted hstarted'

theorem sendAll_accounts (h : AnswersAccount platform nested answer) {transaction : Nat} :
    ∀ {calls : List Call} {s s' : PocDaemon},
      sendAll (transactSyncReply platform nested answer) calls s = .ok s' →
      (∀ call ∈ calls, call.transaction = transaction) → transaction < s.received →
      ∃ new history, Accounts platform nested (callsFor transaction calls) [] s s' new history ∧
        Started nested (.calls calls.length) s.sent.length (history.map Handled.asked)
          s'.sent.length
  | [], s, s', hrun, _, _ => by
    cases hrun
    have hnone : callsFor transaction [] = noCalls := by
      funext n
      exact ite_self _
    rw [hnone]
    exact ⟨[], [], Accounts.refl s, .noCalls⟩
  | call :: rest, s, s', hrun, hcalls, hold => by
    obtain ⟨s₁, hcall, hrest⟩ := sendAll_cons.1 hrun
    obtain ⟨new, history, hnew, hstarted⟩ := answerAll_accounts h hcall
    have hfirst := hnew.call (hcalls call List.mem_cons_self) hold
    have hold₁ : transaction < s₁.received := by
      rw [hfirst.received]
      exact Nat.lt_add_right _ hold
    obtain ⟨new', history', hnew', hstarted'⟩ := sendAll_accounts h hrest
      (fun c hc => hcalls c (List.mem_cons_of_mem _ hc)) hold₁
    have hboth := hfirst.trans hnew' fun n hn _ => if_neg (by omega)
    have hall : (fun n => callsFor transaction [call] n ++ callsFor transaction rest n) =
        callsFor transaction (call :: rest) := by
      funext n
      simp only [callsFor]
      split <;> rfl
    rw [hall] at hboth
    refine ⟨_, _, hboth, ?_⟩
    rw [List.map_append]
    refine .call ?_ hstarted'
    simpa using hstarted

/-- A request that adds a listener makes no calls. -/
theorem Request.calls_of_added {lib : Library} {transaction : Nat}
    {listeners : List (Option Remote)} {req : Request} (h : req.added ≠ []) :
    req.calls lib transaction listeners = [] := by
  cases hround : req.round lib with
  | none => exact Request.calls_of_no_round hround listeners
  | some actions => exact absurd (Request.of_round hround).2.1 h

theorem handle_accounts : ∀ fuel : Nat,
    AnswersAccount platform nested fun req s => handle platform nested fuel req s
  | 0 => by
    intro req s reply s' hrun
    cases hrun
  | fuel + 1 => by
    intro req s reply s' hrun
    have hgrows := transactSyncReply_grows platform nested
      (handle_answersExtend platform nested fuel)
    obtain ⟨-, -, s₁, hcalls, rfl⟩ := handleCallsCb_sound hgrows hrun
    obtain ⟨new, history, hnew, hstarted⟩ := sendAll_accounts (handle_accounts fuel) hcalls
      (fun call hcall => Request.transaction_of_mem_calls hcall) (Nat.lt_succ_self _)
    rw [← Request.length_calls] at hstarted
    refine ⟨new, _, history, hnew.transaction fun hadded => ?_, hstarted⟩
    rw [Request.calls_of_added hadded] at hcalls
    cases hcalls
    exact List.eq_nil_of_length_eq_zero (Nat.left_eq_add.1 hnew.received)

/-- A history explains a run from the start over `reqs` to the state `s`. -/
structure History.Explains (history : History) (platform : DaemonPlatform)
    (nested : Nat → List Request) (reqs : List Request) (s : PocDaemon) : Prop where
  received : s.received = history.length
  /-- The requests of the run and those that arrived during its calls are handled, each once. -/
  requests : history.requests.Perm (reqs ++ arrivals nested 0 s.sent.length)
  /-- They have the order in which they were started, each with the calls of its round. -/
  started : Started nested (.requests reqs) 0 (history.map Handled.asked) s.sent.length
  /-- The registry is what they add, in this order. -/
  registered : s.listenerArray = history.requests.flatMap Request.added
  numbered : ∀ call ∈ s.sent, call.1.transaction < history.length
  /-- The calls made for a transaction are those its request asks for, over a registry that begins
  with what it and all earlier ones have added and is a part of the last one. -/
  rounds : ∀ (i : Nat) (t : Handled), history[i]? = some t →
    (history.requests.take (i + 1)).flatMap Request.added <+: t.registry ∧
      t.registry <+: s.listenerArray ∧
      ownCalls i s.sent = t.request.calls (platform.library i) i t.registry

/-- **Whatever arrives during its calls, a run is explained by a history.** -/
theorem run_explained (fuel : Nat) {reqs : List Request} {s : PocDaemon}
    (hrun : answerAll (fun req s => handle platform nested fuel req s) reqs .start = .ok s) :
    ∃ history : History, history.Explains platform nested reqs s := by
  obtain ⟨new, history, h, hstarted⟩ := answerAll_accounts (handle_accounts fuel) hrun
  have hsent : s.sent = new := h.sent
  have hreceived : s.received = history.length := by
    rw [h.received, PocDaemon.start, Nat.zero_add]
  refine ⟨history, hreceived, hsent ▸ h.requests, hstarted, h.registered, ?_, ?_⟩
  · rw [hsent, ← hreceived]
    exact h.numbered
  · intro i t hi
    obtain ⟨hseen, hlast⟩ := h.registries i t hi
    have hcalls := h.calls i t hi
    rw [PocDaemon.start, Nat.zero_add] at hcalls
    exact ⟨hseen, hlast, hsent ▸ hcalls⟩

/-- Listener 1 adds listener 2 from its first `onChanged`. -/
theorem run_explained_nested :
    ∃ s, answerAll (fun req s => handle reliablePlatform
        (fun n => if n = 0 then [addListenerRequest 2] else []) 4 req s)
        [addListenerRequest 1, triggerChangeRequest] .start = .ok s ∧
      s.listenerArray = [some 1, some 2] ∧
      ∃ history : History, history.Explains reliablePlatform
        (fun n => if n = 0 then [addListenerRequest 2] else [])
        [addListenerRequest 1, triggerChangeRequest] s := by
  exact ⟨_, rfl, rfl, run_explained 4 rfl⟩

end FwupdPoc
