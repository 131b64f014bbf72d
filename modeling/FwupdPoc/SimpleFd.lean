import FwupdPoc.Ndk.Reference

/-!
# The `simple_fd` service

The transactions of `simple_fd_svc.c`: `method_send_fd`, which reads the arguments of `sendFd` off
the incoming parcel, and `binder_class_on_transact`, which picks a handler out of a table. How an
item is parsed is the library's affair, so the parsers are a parameter (`ParcelSource`): a read
returns `STATUS_OK` exactly when it has parsed its item at the cursor. The model keeps a log of the
reads, which the code does not see.

The handler logs the statuses of its reads and answers `STATUS_OK` whatever they are, so it is right
about the argument lists that parse. The guard of the table never fires, since no unsigned code is
below zero, so the service survives the one code that has a handler.
-/

namespace FwupdPoc

open Wire

/-! ## Incoming parcels -/

/-- What `method_send_fd` reads. -/
inductive Argument where
  | string | parcelFileDescriptor | int32 | persistableBundle
  deriving DecidableEq

/-- The parcels of the library, with their cursor, and its parsers. A NULL string is `none`, and a
NULL descriptor is -1. Where an item cannot be parsed at the cursor, a read returns an error status
and leaves the cursor anywhere. -/
structure ParcelSource (P B : Type) where
  string : P → Option (Option GString × P)
  parcelFileDescriptor : P → Option (Int × P)
  int32 : P → Option (BitVec 32 × P)
  persistableBundle : P → Option (B × P)
  reject : Argument → P → BinderStatus × P
  reject_ne_ok : ∀ a p, (reject a p).1 ≠ statusOk

/-- An incoming parcel, with the reads made of it and their statuses. -/
structure InParcel (P : Type) where
  parcel : P
  reads : List (Argument × BinderStatus)

variable {P B α : Type}

/-- Reads an item off the parcel: the status, and the item where it is parsed. -/
def ParcelSource.read (source : ParcelSource P B) (a : Argument) (parse : P → Option (α × P))
    (p : InParcel P) : BinderStatus × Option α × InParcel P :=
  match parse p.parcel with
  | some (value, rest) => (statusOk, some value, ⟨rest, p.reads ++ [(a, statusOk)]⟩)
  | none =>
    let rejected := source.reject a p.parcel
    (rejected.1, none, ⟨rejected.2, p.reads ++ [(a, rejected.1)]⟩)

/-- A read of an item that parses. -/
theorem ParcelSource.read_of_parse {source : ParcelSource P B} {a : Argument}
    {parse : P → Option (α × P)} {p : InParcel P} {value : α} {rest : P}
    (h : parse p.parcel = some (value, rest)) :
    source.read a parse p = (statusOk, some value, ⟨rest, p.reads ++ [(a, statusOk)]⟩) := by
  rw [ParcelSource.read, h]

/-! ## `sendFd` -/

/-- `parcel_string_allocator`: whether it returns true, and the size of the buffer it allocates. -/
def parcelStringAllocator (length : Int) : Bool × Option Nat :=
  if length = 0 then (false, none)
  else if length = -1 then (true, none)
  else (true, some length.toNat)

/-- `STATUS_NO_MEMORY`. -/
def statusNoMemory : BinderStatus := -12

/-- `AParcel_readString`: the allocator is called with -1 for a NULL string and otherwise with the
length of the string and its terminator. -/
def aParcelReadString (source : ParcelSource P B) (allocator : Int → Bool × Option Nat)
    (p : InParcel P) : BinderStatus × Option GString × InParcel P :=
  match source.read .string source.string p with
  | (status, none, p') => (status, none, p')
  | (_, some none, p') =>
    if (allocator (-1)).1 then (statusOk, none, p') else (statusNoMemory, none, p')
  | (_, some (some s), p') =>
    match allocator (s.length + 1) with
    | (true, some _) => (statusOk, some s, p')
    | _ => (statusNoMemory, none, p')

/-- The allocator never refuses, since no length is zero. -/
theorem aParcelReadString_of_parse {source : ParcelSource P B} {p : InParcel P}
    {value : Option GString} {rest : P} (h : source.string p.parcel = some (value, rest)) :
    aParcelReadString source parcelStringAllocator p =
      (statusOk, value, ⟨rest, p.reads ++ [(.string, statusOk)]⟩) := by
  rw [aParcelReadString, ParcelSource.read_of_parse h]
  cases value with
  | none => rfl
  | some s =>
    have hzero : (s.length : Int) + 1 ≠ 0 := by omega
    have hnull : (s.length : Int) + 1 ≠ -1 := by omega
    simp [parcelStringAllocator, hzero, hnull]

/-- The arguments of `sendFd`, as the service has them: a string, a descriptor, and the bundle where
the presence flag is not zero. -/
structure SendFd (B : Type) where
  str : Option GString
  fd : Int
  bundle : Option B

/-- `method_send_fd`. The arguments are logged, and so are the statuses that are not `STATUS_OK`. A
variable keeps its first value where its read fails. -/
def methodSendFd (source : ParcelSource P B) (p : InParcel P) :
    BinderStatus × SendFd B × InParcel P :=
  let str := aParcelReadString source parcelStringAllocator p
  let fd := source.read .parcelFileDescriptor source.parcelFileDescriptor str.2.2
  -- the status of this read is dropped
  let bundleNullFlag := source.read .int32 source.int32 fd.2.2
  if bundleNullFlag.2.1.getD 0 ≠ 0 then
    let bundle := source.read .persistableBundle source.persistableBundle bundleNullFlag.2.2
    (statusOk, ⟨str.2.1, fd.2.1.getD 0, bundle.2.1⟩, bundle.2.2)
  else (statusOk, ⟨str.2.1, fd.2.1.getD 0, none⟩, bundleNullFlag.2.2)

/-- The argument list of `ISimpleFd.sendFd`: a nullable string, a nullable descriptor, a presence
flag, and a bundle where the flag is not zero. -/
def parseSendFd (source : ParcelSource P B) (p : P) : Option (SendFd B × P) := do
  let (str, p) ← source.string p
  let (fd, p) ← source.parcelFileDescriptor p
  let (flag, p) ← source.int32 p
  if flag ≠ 0 then
    let (bundle, p) ← source.persistableBundle p
    return (⟨str, fd, some bundle⟩, p)
  else return (⟨str, fd, none⟩, p)

/-- The service answers `STATUS_OK` to every parcel. -/
theorem methodSendFd_status (source : ParcelSource P B) (p : InParcel P) :
    (methodSendFd source p).1 = statusOk := by
  rw [methodSendFd]
  dsimp only
  split
  · rfl
  · rfl

/-- An argument list that parses is read as it is, and no read of it fails. -/
theorem methodSendFd_of_parse {source : ParcelSource P B} {p rest : P} {args : SendFd B}
    (h : parseSendFd source p = some (args, rest)) :
    ∃ reads, methodSendFd source ⟨p, []⟩ = (statusOk, args, ⟨rest, reads⟩) ∧
      ∀ read ∈ reads, read.2 = statusOk := by
  simp only [parseSendFd, Option.bind_eq_bind, Option.bind_eq_some_iff] at h
  obtain ⟨⟨str, p₁⟩, hstr, ⟨fd, p₂⟩, hfd, ⟨flag, p₃⟩, hflag, h⟩ := h
  rw [methodSendFd, aParcelReadString_of_parse hstr]
  dsimp only
  rw [ParcelSource.read_of_parse (p := ⟨p₁, _⟩) hfd]
  dsimp only
  rw [ParcelSource.read_of_parse (p := ⟨p₂, _⟩) hflag]
  dsimp only [Option.getD_some]
  by_cases hpresent : flag ≠ 0
  · rw [if_pos hpresent] at h ⊢
    obtain ⟨⟨bundle, p₄⟩, hbundle, h⟩ := Option.bind_eq_some_iff.1 h
    cases h
    rw [ParcelSource.read_of_parse (p := ⟨p₃, _⟩) hbundle]
    exact ⟨_, rfl, by simp⟩
  · rw [if_neg hpresent] at h ⊢
    cases h
    exact ⟨_, rfl, by simp⟩

/-- The service accepts an argument list exactly if it parses, and reads nothing behind a read that
fails. -/
def AcceptsExactly (source : ParcelSource P B) (p : P) : Prop :=
  ((methodSendFd source ⟨p, []⟩).1 = statusOk ↔ (parseSendFd source p).isSome) ∧
    ∀ before failed after,
      (methodSendFd source ⟨p, []⟩).2.2.reads = before ++ failed :: after →
      failed.2 ≠ statusOk → after = []

/-- The contract of `sendFd` holds of the argument lists that parse. -/
theorem acceptsExactly_iff (source : ParcelSource P B) (p : P) :
    AcceptsExactly source p ↔ (parseSendFd source p).isSome := by
  refine ⟨fun h => h.1.1 (methodSendFd_status source _), fun h => ⟨?_, ?_⟩⟩
  · simp [methodSendFd_status, h]
  · obtain ⟨⟨args, rest⟩, hparse⟩ := Option.isSome_iff_exists.1 h
    obtain ⟨reads, hrun, hok⟩ := methodSendFd_of_parse hparse
    intro before failed after hreads hfailed
    rw [hrun] at hreads
    have hmem : failed ∈ reads := by
      rw [show reads = before ++ failed :: after from hreads]
      exact List.mem_append_right _ List.mem_cons_self
    exact absurd (hok failed hmem) hfailed

/-- Parcels as their remaining bytes and descriptors, read in the reference format. The length -1
stands for a NULL string, and the word zero for a NULL descriptor. -/
def referenceSource : ParcelSource (List Byte × List Int) MapBundle where
  string p := do
    let (length, rest) ← (Codec.word 4).dec p.1
    if length = -1 then return (none, (rest, p.2))
    else
      let (s, rest) ← referenceFormat.string.dec p.1
      return (some s, (rest, p.2))
  parcelFileDescriptor p := do
    let (present, rest) ← (Codec.word 4).dec p.1
    if present = 0 then return (-1, (rest, p.2))
    else
      match p.2 with
      | fd :: fds => return (fd, (rest, fds))
      | [] => none
  int32 p := do
    let (value, rest) ← (Codec.word 4).dec p.1
    return (value, (rest, p.2))
  persistableBundle p := do
    let (bundle, rest) ← MapBundle.codec.dec p.1
    return (bundle, (rest, p.2))
  -- `STATUS_NOT_ENOUGH_DATA`
  reject _ p := (-61, p)
  reject_ne_ok _ _ := by simp [statusOk]

/-- A parcel without any data is accepted. -/
theorem emptyParcel_accepted : ¬ AcceptsExactly referenceSource ([], []) := by
  intro h
  have hparse : (parseSendFd referenceSource ([], [])).isSome = true :=
    h.1.1 (methodSendFd_status referenceSource _)
  cases hparse

/-! ## Dispatch -/

/-- `STATUS_INVALID_OPERATION`. -/
def statusInvalidOperation : BinderStatus := -38

/-- `AIBinder_Class_onTransact`: what it returns, and the parcel it has read. -/
abbrev OnTransact (P : Type) := InParcel P → BinderStatus × InParcel P

/-- `method_funcs`. -/
def methodFuncs (source : ParcelSource P B) : List (Option (OnTransact P)) :=
  [none, some fun p => ((methodSendFd source p).1, (methodSendFd source p).2.2)]

/-- Why a transaction ends the process. -/
inductive TransactFault where
  /-- `method_funcs` is read behind its end. -/
  | outOfBounds
  | nullFunction
  deriving DecidableEq

/-- `binder_class_on_transact`. -/
def binderClassOnTransact (source : ParcelSource P B) (code : BitVec 32) (p : InParcel P) :
    Except TransactFault (BinderStatus × InParcel P) :=
  if code < 0 ∧ code.toNat > (methodFuncs source).length then .ok (statusInvalidOperation, p)
  else
    match (methodFuncs source)[code.toNat]? with
    | none => .error .outOfBounds
    | some none => .error .nullFunction
    | some (some onTransact) => .ok (onTransact p)

/-- The handler of a code. -/
def handler (source : ParcelSource P B) (code : BitVec 32) : Option (OnTransact P) :=
  (methodFuncs source)[code.toNat]?.join

/-- A transaction returns: what the handler of its code returns, and otherwise
`STATUS_INVALID_OPERATION`, with the parcel unread. -/
def DispatchesSafely (source : ParcelSource P B) (code : BitVec 32) (p : InParcel P) : Prop :=
  binderClassOnTransact source code p =
    .ok (match handler source code with
      | some onTransact => onTransact p
      | none => (statusInvalidOperation, p))

/-- The guard never fires. -/
theorem binderClassOnTransact_eq (source : ParcelSource P B) (code : BitVec 32) (p : InParcel P) :
    binderClassOnTransact source code p =
      match (methodFuncs source)[code.toNat]? with
      | none => .error .outOfBounds
      | some none => .error .nullFunction
      | some (some onTransact) => .ok (onTransact p) := by
  have hguard : ¬ (code < 0 ∧ code.toNat > (methodFuncs source).length) := by
    rintro ⟨hneg, -⟩
    exact absurd (BitVec.lt_def.1 hneg) (Nat.not_lt_zero _)
  rw [binderClassOnTransact, if_neg hguard]

/-- The dispatcher is safe for the code of `sendFd`. -/
theorem dispatchesSafely_iff (source : ParcelSource P B) (code : BitVec 32) (p : InParcel P) :
    DispatchesSafely source code p ↔ code = 1 := by
  rw [DispatchesSafely, binderClassOnTransact_eq]
  refine ⟨fun h => ?_, fun h => ?_⟩
  · rcases Nat.lt_or_ge code.toNat (methodFuncs source).length with hlt | hge
    · have hcode : code.toNat = 0 ∨ code.toNat = 1 := by
        change code.toNat < 2 at hlt
        omega
      rcases hcode with hzero | hone
      · rw [hzero] at h
        cases h
      · exact BitVec.eq_of_toNat_eq hone
    · rw [List.getElem?_eq_none hge] at h
      cases h
  · subst h
    rfl

/-- Code 2 reads the table behind its end. -/
theorem unknownCode_not_safe :
    ¬ DispatchesSafely referenceSource 2 ⟨([], []), []⟩ := by
  intro h
  have hfault : binderClassOnTransact referenceSource 2 ⟨([], []), []⟩ = .error .outOfBounds := rfl
  cases hfault.symm.trans h

end FwupdPoc
