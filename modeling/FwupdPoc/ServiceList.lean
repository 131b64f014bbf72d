import Mathlib.Data.List.TakeWhile

/-!
# The service list

`print_service_list` of `poc_service_list.c`, which prints every listed service with the name of its
interface. The service manager and the services answer as they like, so the list and what happens at
each service are inputs. The loop asserts that a service has answered, so the first one that has not
ends the program (`printEntries_eq`), and the list itself is not checked for NULL.
-/

namespace FwupdPoc

/-- `GBINDER_STATUS_OK`. -/
def gbinderStatusOk : Int := 0

/-- What happens at a listed service. The lookup of a service that has gone returns NULL, and the
transaction on NULL leaves the variable for its status unset: `stat` is what is found there. -/
inductive ServiceOutcome where
  | gone (stat : Int)
  | failed (stat : Int) (hstat : stat ≠ gbinderStatusOk)
  /-- The reply has no interface string. -/
  | unreadable
  | answers (interface : String)

/-- The value of `stat` behind `gbinder_client_transact_sync_reply`. -/
def ServiceOutcome.stat : ServiceOutcome → Int
  | .gone stat => stat
  | .failed stat _ => stat
  | .unreadable => gbinderStatusOk
  | .answers _ => gbinderStatusOk

/-- What `gbinder_reader_read_string16` returns for the reply. There is nothing to read in a NULL
reply. -/
def ServiceOutcome.string16 : ServiceOutcome → Option String
  | .gone _ => none
  | .failed _ _ => none
  | .unreadable => none
  | .answers interface => some interface

/-- A printed line, `"%s [%s]\n"`. NULL is printed as `(null)`. -/
structure Line where
  serviceName : String
  serviceInterface : Option String
  deriving DecidableEq

/-- How the program dies. -/
inductive ListFault where
  /-- `g_assert(stat == GBINDER_STATUS_OK)`. -/
  | assertionFailed
  /-- `*ptr` where the list is NULL. -/
  | nullList
  deriving DecidableEq

/-- A listed name, and what happens at its service. -/
abbrev Entry := String × ServiceOutcome

/-- The loop over the entries from `ptr` on: the lines printed, and the fault that ends it. -/
def printEntries : List Entry → List Line × Option ListFault
  | [] => ([], none)
  | (serviceName, outcome) :: ptr =>
    if outcome.stat = gbinderStatusOk then
      let rest := printEntries ptr
      (⟨serviceName, outcome.string16⟩ :: rest.1, rest.2)
    else ([], some .assertionFailed)

/-- `print_service_list`. The argument is what `gbinder_servicemanager_list_sync` returns. -/
def printServiceList : Option (List Entry) → List Line × Option ListFault
  | none => ([], some .nullList)
  | some serviceNameList => printEntries serviceNameList

/-- Whether the transaction of an entry leaves `GBINDER_STATUS_OK` in `stat`. -/
def statusIsOk (e : Entry) : Bool := e.2.stat = gbinderStatusOk

/-- The line of an entry. -/
def Entry.line (e : Entry) : Line := ⟨e.1, e.2.string16⟩

/-- The loop prints the entries in front of the first one that has no status `OK`, and dies at that
one. -/
theorem printEntries_eq (entries : List Entry) :
    printEntries entries =
      ((entries.takeWhile statusIsOk).map Entry.line,
        if entries.all statusIsOk then none else some .assertionFailed) := by
  induction entries with
  | nil => rfl
  | cons e entries ih =>
    unfold printEntries
    split
    · rename_i hok
      have hstatus : statusIsOk e = true := decide_eq_true hok
      rw [ih, List.takeWhile_cons_of_pos hstatus]
      simp only [List.map_cons, List.all_cons, hstatus, Bool.true_and]
      rfl
    · rename_i hfail
      have hstatus : ¬ statusIsOk e = true := by simpa [statusIsOk] using hfail
      rw [List.takeWhile_cons_of_neg hstatus]
      simp [hstatus]

/-- Where every entry has status `OK`, every entry has its line. -/
theorem printEntries_of_ok {entries : List Entry} (h : ∀ e ∈ entries, statusIsOk e = true) :
    printEntries entries = (entries.map Entry.line, none) := by
  rw [printEntries_eq, List.takeWhile_eq_self_iff.2 h, if_pos (List.all_eq_true.2 h)]

/-- The loop returns only where every entry has status `OK`. -/
theorem ok_of_printEntries_returns {entries : List Entry} (h : (printEntries entries).2 = none) :
    ∀ e ∈ entries, statusIsOk e = true := by
  rw [printEntries_eq] at h
  by_contra hnot
  rw [← List.all_eq_true] at hnot
  rw [if_neg hnot] at h
  cases h

/-- The services are listed: the function returns, each listed name has one line, in the order of
the list and with the interface of a service that answers, and each line is what is printed where
its service is the only one. -/
structure ListsServices (serviceNameList : Option (List Entry)) : Prop where
  returns : (printServiceList serviceNameList).2 = none
  names : (printServiceList serviceNameList).1.map Line.serviceName =
    (serviceNameList.getD []).map Prod.fst
  interfaces : ∀ (i : Nat) (serviceName interface : String),
    (serviceNameList.getD [])[i]? = some (serviceName, .answers interface) →
    (printServiceList serviceNameList).1[i]? = some ⟨serviceName, some interface⟩
  independent : ∀ (i : Nat) (e : Entry), (serviceNameList.getD [])[i]? = some e →
    (printServiceList serviceNameList).1[i]?.toList = (printServiceList (some [e])).1

/-- The services are listed exactly if there is a list and the transaction of every service leaves
`GBINDER_STATUS_OK` in `stat`. -/
theorem listsServices_iff (serviceNameList : Option (List Entry)) :
    ListsServices serviceNameList ↔
      ∃ entries, serviceNameList = some entries ∧ ∀ e ∈ entries, e.2.stat = gbinderStatusOk := by
  refine ⟨fun h => ?_, fun ⟨entries, hlist, hstat⟩ => ?_⟩
  · cases serviceNameList with
    | none => cases h.returns
    | some entries =>
      have hok := ok_of_printEntries_returns h.returns
      exact ⟨entries, rfl, fun e he => of_decide_eq_true (hok e he)⟩
  · subst hlist
    have hok : ∀ e ∈ entries, statusIsOk e = true := fun e he => decide_eq_true (hstat e he)
    have hrun : printServiceList (some entries) = (entries.map Entry.line, none) :=
      printEntries_of_ok hok
    refine ⟨?_, ?_, fun i serviceName interface hi => ?_, fun i e hi => ?_⟩
    · rw [hrun]
    · rw [hrun, List.map_map]
      rfl
    · rw [hrun, List.getElem?_map, show entries[i]? = _ from hi]
      rfl
    · have halone : printServiceList (some [e]) = ([e.line], none) :=
        printEntries_of_ok (by simpa using hok e (List.mem_of_getElem? hi))
      rw [hrun, halone, List.getElem?_map, show entries[i]? = _ from hi]
      rfl

/-- A service that has gone takes the one behind it along. -/
theorem goneService_not_listed :
    ¬ ListsServices (some [("fwupd", .gone (-1)), ("simple_fd", .answers "ISimpleFd")]) := by
  intro h
  cases h.returns

end FwupdPoc
