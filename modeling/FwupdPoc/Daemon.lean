import FwupdPoc.Daemon.Payloads
import FwupdPoc.Lib.GrowingLoop
import FwupdPoc.Ndk.Parcel

/-!
# `handle_calls_cb`

The incoming transactions of the C daemon. A transaction may fault, when the code dereferences
NULL, frees a buffer twice or calls `g_error`; otherwise it returns a reply, `*status` and a new
state. What the code cannot know is a parameter: the outcomes of the library calls made for a
transaction (`Library`), the statuses of the calls to listeners, and what happens while the daemon
waits for the reply of a listener, where the driver may dispatch further transactions to the handler
(`handle`).

The function uses `AStatus` and `AParcel` outside `#if HAS_BINDER_NDK` too, so the model is that of
a build with the NDK. Its parcels are the lists of what is written to them, and the buffers a parcel
is marshalled into are followed in the loops over the listeners, where one of them is freed by hand.
-/

namespace FwupdPoc

/-! ## Requests -/

/-- The identity of a `GBinderRemoteObject`. -/
abbrev Remote := Nat

/-- `enum poc_transactions`. -/
inductive PocTransaction where
  | getString | setString | getFd | setFd | getDict | setDict | getInt | setInt | getIntArray
  | getBundle | getBundles | getBundleMatrix | getStrings | getBools | getMaybeStrings
  | addListener | removeListener | triggerChange | triggerDeviceAdded
  deriving DecidableEq

/-- The cases of the switch, counted from `GBINDER_FIRST_CALL_TRANSACTION`. -/
def PocTransaction.ofCode (code : BitVec 32) : Option PocTransaction :=
  match code.toNat with
  | 1 => some .getString
  | 2 => some .setString
  | 3 => some .getFd
  | 4 => some .setFd
  | 5 => some .getDict
  | 6 => some .setDict
  | 7 => some .getInt
  | 8 => some .setInt
  | 9 => some .getIntArray
  | 10 => some .getBundle
  | 11 => some .getBundles
  | 12 => some .getBundleMatrix
  | 13 => some .getStrings
  | 14 => some .getBools
  | 15 => some .getMaybeStrings
  | 16 => some .addListener
  | 17 => some .removeListener
  | 18 => some .triggerChange
  | 19 => some .triggerDeviceAdded
  | _ => none

/-- `SERVICE_IFACE`. -/
def serviceIface : String := "org.freedesktop.fwupdpoc.IPocFwupd"

/-- An incoming transaction: its interface, `none` for NULL, its code, and what the readers of its
payload return: `none` for NULL or FALSE. -/
structure Request where
  iface : Option String
  code : BitVec 32
  string16 : Option String
  int32 : Option (BitVec 32)
  object : Option Remote

/-- The method a request is for, if it is one of the service's. -/
def Request.method (req : Request) : Option PocTransaction :=
  if req.iface = some serviceIface then PocTransaction.ofCode req.code else none

/-! ## Replies and calls to listeners -/

/-- What the code writes to a parcel. -/
inductive ParcelItem where
  | statusHeader
  | int32 (value : Int)
  | string (value : String)
  | variant (value : GVariant)
  | bundle (value : GVariant)
  /-- Items behind their size in bytes, which is filled in last. -/
  | sized (items : List ParcelItem)

/-- What is appended to a reply or a request. -/
inductive Item where
  | int32 (value : Int)
  | string16 (value : String)
  /-- The buffer of a parcel, whether all of it was written to the parcel, and whether the parcel
  was marshalled; the buffer has zeros if not. -/
  | bytes (parcel : List ParcelItem) (written marshalled : Bool)
  /-- `struct Device` with `path`, by `gbinder_writer_append_parcelable`. -/
  | device (id ido : Int) (path : String)
  /-- `struct DeepExample` with NULL for `other` and `example`. -/
  | deepExample (id : Int)

/-- `enum listener_transactions`. -/
inductive ListenerTransaction where
  | onChanged | onDeviceAdded | onDeepExample | onParams | onBundles
  deriving DecidableEq

/-- An outgoing transaction, made on behalf of an incoming one. -/
structure Call where
  transaction : Nat
  target : Option Remote
  code : ListenerTransaction
  payload : List Item

/-- The outcomes of the library calls made for one transaction. -/
structure Library where
  /-- The calls that write to a parcel, in order. -/
  write : Nat → BinderStatus
  /-- `gp_parcel_write_variant` sets its error, where it is given one. -/
  variantError : Bool
  /-- `gp_vardict_to_persistable_bundle` returns NULL. -/
  bundleIsNull : Bool
  /-- The calls of `AParcel_marshal`, in order. -/
  marshal : Nat → BinderStatus

/-- `count` writes, from number `first` on, succeed. -/
def Library.written (lib : Library) (first count : Nat) : Bool :=
  (List.range' first count).all fun n => lib.write n = statusOk

/-- The platform: what it makes of a second `free` of a buffer and of a NULL client, and the
outcomes of library calls, by incoming transaction, and of calls to listeners, by outgoing one.
Where `heapChecked` is false, heap management is set aside. -/
structure DaemonPlatform where
  heapChecked : Bool
  toleratesNullClient : Bool
  library : Nat → Library
  status : Nat → Int

/-- `struct PocDaemon`, with the number of transactions received and the calls sent so far. -/
structure PocDaemon where
  listenerArray : List (Option Remote)
  received : Nat
  sent : List (Call × Int)

/-- Why the process ends. -/
inductive Fault where
  | nullInterface | gError | nullBundle | nullClient | nullStruct | doubleFree
  /-- Not a fault of the code: the model has run out of fuel. -/
  | outOfFuel
  deriving DecidableEq

/-- What the handler returns, and `*status`. -/
structure Answer where
  reply : Option (List Item)
  status : Int

/-- `gbinder_client_transact_sync_reply`, as the handler makes it. -/
abbrev Transact := Call → PocDaemon → Except Fault PocDaemon

/-! ## The loops over the listeners -/

/-- The steps of a loop body that something outside the body sees, or that may end the process. -/
inductive Action where
  /-- A call to the listener with the request built last. -/
  | send (code : ListenerTransaction) (payload : List Item)
  /-- A `free` of one of the buffers of the body. -/
  | free (buffer : Nat)
  /-- The assignments to the struct that `gbinder_writer_new0` returns for the request built last,
  which is NULL where there is no request. -/
  | assign

/-- The body of the loop of `TRIGGER_CHANGE`, for listener number `i`. Buffer 0 is `buffer`, buffer
1 is `bundles_params_buffer`. -/
def changeActions (lib : Library) (i : Nat) : List Action :=
  [.send .onChanged [],
    .send .onParams
      [.bytes [.variant paramsVariant] (lib.written (2 * i) 1) (lib.marshal (2 * i) = statusOk)],
    .send .onBundles
      [.bytes [.variant bundlesParamsVariant] (lib.written (2 * i + 1) 1)
        (lib.marshal (2 * i + 1) = statusOk)],
    -- `g_autofree`
    .free 1,
    .free 0]

/-- The body of the loop of `TRIGGER_DEVICE_ADDED`, for listener number `i`. -/
def deviceAddedActions (lib : Library) (i : Nat) : List Action :=
  [.send .onDeviceAdded
      [.bytes [.int32 1, .sized [.int32 68, .int32 69, .string "hello world"]]
        -- the size is written twice
        (lib.written (6 * i) 6) (lib.marshal i = statusOk)],
    -- `free(buffer)`
    .free 0,
    -- `device->id = 12`
    .assign,
    .send .onDeviceAdded [.device 12 120 "this is a test"],
    .send .onDeviceAdded
      [.int32 1, .int32 (16 + 4), .int32 13, .int32 130, .string16 "append each"],
    -- `de->other = NULL`
    .assign,
    .send .onDeepExample [.deepExample 43],
    .send .onDeepExample
      [.int32 1, .int32 (24 + 16 + 4), .int32 1, .int32 3, .string16 "append each", .int32 4,
        .string16 "append each 2"],
    -- `g_autofree`
    .free 0]

/-- Runs the steps of a loop body, with the buffers that have been freed in it. A call without a
client does nothing. The statuses of the calls are read into a variable that is logged at most. -/
def runActions (platform : DaemonPlatform) (transact : Transact) (transaction : Nat)
    (target : Option Remote) : List Action → List Nat → PocDaemon → Except Fault PocDaemon
  | [], _, s => .ok s
  | .send code payload :: rest, freed, s =>
    if target = none then runActions platform transact transaction target rest freed s
    else
      match transact ⟨transaction, target, code, payload⟩ s with
      | .ok s' => runActions platform transact transaction target rest freed s'
      | .error fault => .error fault
  | .free buffer :: rest, freed, s =>
    if platform.heapChecked ∧ buffer ∈ freed then .error .doubleFree
    else runActions platform transact transaction target rest (buffer :: freed) s
  | .assign :: rest, freed, s =>
    if target = none then .error .nullStruct
    else runActions platform transact transaction target rest freed s

/-- The body of a loop for listener number `i`: the client of the entry, and its steps. -/
def listenerBody (platform : DaemonPlatform) (transact : Transact) (transaction : Nat)
    (actions : Nat → List Action) (i : Nat) (target : Option Remote) (s : PocDaemon) :
    Except Fault PocDaemon :=
  if target = none ∧ ¬ platform.toleratesNullClient then .error .nullClient
  else runActions platform transact transaction target (actions i) [] s

/-- The loop `for (guint i = 0; i < daemon->listener_array->len; i++)`. The array is read anew for
each `i`. -/
def forListeners (platform : DaemonPlatform) (transact : Transact) (transaction : Nat)
    (actions : Nat → List Action) (fuel : Nat) (s : PocDaemon) : Except Fault PocDaemon :=
  Growing.forEntries PocDaemon.listenerArray (listenerBody platform transact transaction actions)
    .outOfFuel fuel 0 s

/-! ## The handler -/

/-- The handler returns a reply. `*status` is what libgbinder set it to, `GBINDER_STATUS_OK`: the
code never assigns it. -/
def replied (items : List Item) : Answer := ⟨some items, statusOk⟩

/-- The handler returns NULL. -/
def noReply : Answer := ⟨none, statusOk⟩

/-- A reply with the buffer of a parcel, whose items are behind its status header. Where one of the
writes or `AParcel_marshal` fails, the code logs a warning at most and appends the buffer all the
same. -/
def repliedParcel (lib : Library) (items : List ParcelItem) : Answer :=
  replied
    [.bytes (.statusHeader :: items) (lib.written 0 (items.length + 1)) (lib.marshal 0 = statusOk)]

/-- The switch of `handle_calls_cb`. -/
def handleMethod (platform : DaemonPlatform) (transact : Transact) (fuel transaction : Nat)
    (req : Request) (s : PocDaemon) : Option PocTransaction → Except Fault (Answer × PocDaemon)
  | some .getString =>
    if (platform.library transaction).variantError then .error .gError
    else if (platform.library transaction).marshal 0 = statusOk then
      .ok (repliedParcel (platform.library transaction) [.variant stringVariant], s)
    else .ok (noReply, s)
  -- the string is logged
  | some .setString => .ok (noReply, s)
  -- "unimplemented"
  | some .getFd | some .setFd | some .getDict | some .setDict => .ok (noReply, s)
  | some .getInt => .ok (replied [.int32 0, .int32 99], s)
  -- the number is logged
  | some .setInt => .ok (noReply, s)
  | some .getIntArray =>
    .ok (repliedParcel (platform.library transaction) [.variant intArrayVariant], s)
  | some .getBundle =>
    -- the size of the bundle is logged
    if (platform.library transaction).bundleIsNull then .error .nullBundle
    else
      .ok (repliedParcel (platform.library transaction) [.int32 1, .bundle ⟨_, vardict⟩], s)
  | some .getBundles =>
    .ok (repliedParcel (platform.library transaction) [.variant bundlesVariant], s)
  | some .getBundleMatrix =>
    .ok (repliedParcel (platform.library transaction) [.variant bundleMatrixVariant], s)
  | some .getStrings =>
    .ok (repliedParcel (platform.library transaction) [.variant stringsVariant], s)
  | some .getBools =>
    .ok (repliedParcel (platform.library transaction) [.variant boolsVariant], s)
  | some .getMaybeStrings =>
    .ok (repliedParcel (platform.library transaction) [.variant maybeStringsVariant], s)
  | some .addListener =>
    .ok (noReply, { s with listenerArray := s.listenerArray ++ [req.object] })
  -- "unimplemented"
  | some .removeListener => .ok (noReply, s)
  | some .triggerChange =>
    (forListeners platform transact transaction (changeActions (platform.library transaction))
      fuel s).map fun s' => (noReply, s')
  | some .triggerDeviceAdded =>
    (forListeners platform transact transaction
      (deviceAddedActions (platform.library transaction)) fuel s).map fun s' => (noReply, s')
  -- "received unknown code"
  | none => .ok (noReply, s)

/-- `handle_calls_cb`. -/
def handleCallsCb (platform : DaemonPlatform) (transact : Transact) (fuel : Nat) (req : Request)
    (s : PocDaemon) : Except Fault (Answer × PocDaemon) :=
  let entered := { s with received := s.received + 1 }
  match req.iface with
  -- `g_str_equal (NULL, …)`
  | none => .error .nullInterface
  | some iface =>
    if iface = serviceIface then
      handleMethod platform transact fuel s.received req entered (PocTransaction.ofCode req.code)
    -- "unexpected interface"
    else .ok (noReply, entered)

/-! ## Re-entrancy -/

/-- Handles transactions one after the other. -/
def answerAll (answer : Request → PocDaemon → Except Fault (Answer × PocDaemon)) :
    List Request → PocDaemon → Except Fault PocDaemon
  | [], s => .ok s
  | req :: rest, s =>
    match answer req s with
    | .ok (_, s') => answerAll answer rest s'
    | .error fault => .error fault

/-- Sends a call and handles the transactions that arrive before its reply. -/
def transactSyncReply (platform : DaemonPlatform) (nested : Nat → List Request)
    (answer : Request → PocDaemon → Except Fault (Answer × PocDaemon)) : Transact := fun call s =>
  answerAll answer (nested s.sent.length)
    { s with sent := s.sent ++ [(call, platform.status s.sent.length)] }

/-- The handler, called again for the transactions `nested n` while it waits for the reply to
outgoing call number `n`. -/
def handle (platform : DaemonPlatform) (nested : Nat → List Request) :
    Nat → Request → PocDaemon → Except Fault (Answer × PocDaemon)
  | 0, _, _ => .error .outOfFuel
  | fuel + 1, req, s =>
    handleCallsCb platform
      (transactSyncReply platform nested fun req s => handle platform nested fuel req s) fuel req s

end FwupdPoc
