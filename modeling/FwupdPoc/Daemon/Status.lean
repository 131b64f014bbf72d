import FwupdPoc.Daemon.Reentrancy

/-!
# The status of a transaction

`handle_calls_cb` never assigns `*status`, so whatever returns is a success to the client. A request
that fails differs from one that is carried out in the log only, and an `ADD_LISTENER` without an
object appends NULL to the registry. Nor does the status say whether all of a reply was written: the
results of the writes to its parcel are dropped, and a parcel that was not marshalled is sent as it
is.

A client may rely on a status that is OK exactly where the request can be carried out and comes to
an end with all that arrives meanwhile (`honours_iff`).
-/

namespace FwupdPoc

variable {platform : DaemonPlatform} {nested : Nat → List Request}

/-! ## Requests that are carried out -/

/-- The methods whose case does more than log that it is unimplemented. -/
def PocTransaction.implemented : PocTransaction → Bool
  | .getFd | .setFd | .getDict | .setDict | .removeListener => false
  | _ => true

/-- The arguments of a method can be read from the request. -/
def Request.argumentsRead (req : Request) : PocTransaction → Prop
  | .setString => req.string16 ≠ none
  | .setInt => req.int32 ≠ none
  | .addListener => req.object ≠ none
  | _ => True

/-- The number of writes to the parcel of a reply, for the methods that reply with one. -/
def PocTransaction.replyWrites : PocTransaction → Option Nat
  | .getBundle => some 3
  | .getString | .getIntArray | .getBundles | .getBundleMatrix | .getStrings | .getBools
  | .getMaybeStrings => some 2
  | _ => none

/-- The reply is a parcel, all of which was written and marshalled. -/
def Answer.Whole (answer : Answer) : Prop := ∃ parcel, answer.reply = some [.bytes parcel true true]

/-- A request was for a method that is implemented, its arguments were read, and its reply is whole
if it is a parcel. -/
def Request.CarriedOut (req : Request) (answer : Answer) : Prop :=
  ∃ method, req.method = some method ∧ method.implemented ∧ req.argumentsRead method ∧
    (method.replyWrites ≠ none → answer.Whole)

/-! ## What the outcomes of the library calls make of a request -/

/-- The writes to the parcel of a reply succeed, and so does its marshalling. -/
def Library.replies (lib : Library) (method : PocTransaction) : Prop :=
  ∀ writes ∈ method.replyWrites, lib.written 0 writes ∧ lib.marshal 0 = statusOk

/-- A request is for a method that is implemented, its arguments can be read, and the library calls
for its reply succeed. -/
def Request.Succeeds (lib : Library) (req : Request) : Prop :=
  ∃ method, req.method = some method ∧ method.implemented ∧ req.argumentsRead method ∧
    lib.replies method

theorem repliedParcel_whole {lib : Library} {items : List ParcelItem} :
    (repliedParcel lib items).Whole ↔
      lib.written 0 (items.length + 1) ∧ lib.marshal 0 = statusOk := by
  simp [Answer.Whole, repliedParcel, replied]

/-- The reply of a method that returns is whole if its library calls have succeeded. -/
theorem handleMethod_whole {transact : Transact} {fuel transaction : Nat} {req : Request}
    {s s' : PocDaemon} {answer : Answer} {method : PocTransaction}
    (hparcel : method.replyWrites ≠ none)
    (hrun : handleMethod platform transact fuel transaction req s (some method) =
      .ok (answer, s')) :
    answer.Whole ↔ (platform.library transaction).replies method := by
  cases method with
  | getString =>
    rw [handleMethod] at hrun
    split at hrun
    · cases hrun
    · split at hrun
      · cases hrun
        simp [repliedParcel_whole, Library.replies, PocTransaction.replyWrites]
      · rename_i hmarshal
        cases hrun
        simp [Answer.Whole, noReply, Library.replies, PocTransaction.replyWrites, hmarshal]
  | getBundle =>
    rw [handleMethod] at hrun
    split at hrun
    · cases hrun
    · cases hrun
      simp [repliedParcel_whole, Library.replies, PocTransaction.replyWrites]
  | getIntArray | getBundles | getBundleMatrix | getStrings | getBools | getMaybeStrings =>
    cases hrun
    simp [repliedParcel_whole, Library.replies, PocTransaction.replyWrites]
  | _ => exact absurd rfl hparcel

/-- A request that returns was carried out if its library calls have succeeded. -/
theorem handle_carriedOut_iff {fuel : Nat} {req : Request} {s s' : PocDaemon} {answer : Answer}
    (hrun : handle platform nested fuel req s = .ok (answer, s')) :
    req.CarriedOut answer ↔ req.Succeeds (platform.library s.received) := by
  cases fuel with
  | zero => cases hrun
  | succ fuel =>
    refine exists_congr fun method => and_congr_right fun hmethod => and_congr_right fun _ =>
      and_congr_right fun _ => ?_
    rw [handle, handleCallsCb_of_method hmethod] at hrun
    by_cases hparcel : method.replyWrites = none
    · simp [Library.replies, hparcel]
    · exact (forall_prop_of_true hparcel).trans (handleMethod_whole hparcel hrun)

/-! ## The contract of `*status` -/

/-- A request returns; if the status is OK, it was carried out; if it was not carried out, the
status is an error and the registry is as it was. -/
def Honours (platform : DaemonPlatform) (nested : Nat → List Request) (req : Request)
    (s : PocDaemon) : Prop :=
  ∃ fuel answer s', handle platform nested fuel req s = .ok (answer, s') ∧
    (answer.status = statusOk → req.CarriedOut answer) ∧
    (¬ req.CarriedOut answer →
      answer.status ≠ statusOk ∧ s'.listenerArray = s.listenerArray)

/-- Whatever returns does so with the status it was called with. -/
theorem handle_status {fuel : Nat} {req : Request} {s s' : PocDaemon} {answer : Answer}
    (hrun : handle platform nested fuel req s = .ok (answer, s')) : answer.status = statusOk := by
  cases fuel with
  | zero => cases hrun
  | succ fuel =>
    have hgrows := transactSyncReply_grows platform nested
      (handle_answersExtend platform nested fuel)
    exact (handleCallsCb_sound hgrows hrun).1

/-- The contract holds of a request if its arguments and its library calls allow to carry it out,
and if it comes to an end with all that arrives meanwhile. -/
theorem honours_iff (req : Request) (s : PocDaemon) :
    Honours platform nested req s ↔
      req.Succeeds (platform.library s.received) ∧
        ∃ o', Finishes platform nested (fun _ => True) (.requests [req]) s.outline o' := by
  rw [← answerAll_returns_iff]
  refine ⟨fun ⟨fuel, answer, s', hrun, hcarried, _⟩ => ?_,
    fun ⟨hsucceeds, fuel, s', hrun⟩ => ?_⟩
  · refine ⟨(handle_carriedOut_iff hrun).1 (hcarried (handle_status hrun)), fuel, s', ?_⟩
    exact answerAll_cons.2 ⟨answer, s', hrun, rfl⟩
  · obtain ⟨answer, s₁, hrun, -⟩ := answerAll_cons.1 hrun
    have hcarried := (handle_carriedOut_iff hrun).2 hsucceeds
    exact ⟨fuel, answer, s₁, hrun, fun _ => hcarried, fun hnot => absurd hcarried hnot⟩

/-- `TRIGGER_CHANGE` over listener 1, which adds listener 2 from its `onChanged`. -/
theorem honours_iff_triggerChange :
    Honours reliablePlatform (fun n => if n = 0 then [addListenerRequest 2] else [])
      triggerChangeRequest ⟨[some 1], 1, []⟩ := by
  have hsucceeds : triggerChangeRequest.Succeeds (reliablePlatform.library 1) :=
    ⟨.triggerChange, triggerChangeRequest_method, rfl, trivial, by
      simp [Library.replies, PocTransaction.replyWrites]⟩
  have hlistener : ∀ listener,
      ¬ triggerChangeRequest.CrashesAt reliablePlatform (some listener) := by
    simp [Request.CrashesAt, triggerChangeRequest_method]
  -- the round goes on with listener 2
  have hround₂ : Finishes reliablePlatform (fun n => if n = 0 then [addListenerRequest 2] else [])
      (fun _ => True) (.round triggerChangeRequest 1) ⟨[some 1, some 2], 3, 3⟩
        ⟨[some 1, some 2], 6, 3⟩ :=
    .entry rfl (hlistener 2) (.call .noRequests (.call .noRequests (.call .noRequests .noCalls)))
      (.roundEnds (Nat.le_refl 2))
  have hcalls : Finishes reliablePlatform (fun n => if n = 0 then [addListenerRequest 2] else [])
      (fun _ => True) (.calls 3) ⟨[some 1], 0, 2⟩ ⟨[some 1, some 2], 3, 3⟩ :=
    .call (.request trivial rfl (.round_of_no_events rfl 0 _) .noRequests)
      (.call .noRequests (.call .noRequests .noCalls))
  have hround : Finishes reliablePlatform (fun n => if n = 0 then [addListenerRequest 2] else [])
      (fun _ => True) (.round triggerChangeRequest 0) ⟨[some 1], 0, 2⟩ ⟨[some 1, some 2], 6, 3⟩ :=
    .entry rfl (hlistener 1) hcalls hround₂
  exact (honours_iff triggerChangeRequest _).2
    ⟨hsucceeds, ⟨[some 1, some 2], 6, 3⟩, .request trivial rfl hround .noRequests⟩

/-- `GET_FD`, which logs that it is unimplemented, is answered with an empty reply and status OK. -/
theorem getFd_answered_ok :
    ¬ Honours reliablePlatform (fun _ => []) ⟨some serviceIface, 3, none, none, none⟩
      ⟨[some 1], 1, []⟩ := by
  rintro ⟨fuel, answer, s', hrun, hcarried, -⟩
  obtain ⟨method, hmethod, himplemented, -⟩ := hcarried (handle_status hrun)
  have hgetFd : some method = some .getFd := by
    rw [← hmethod]
    simp [Request.method, PocTransaction.ofCode]
  cases hgetFd
  cases himplemented

end FwupdPoc
