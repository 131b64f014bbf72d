import FwupdPoc.MainActivity.PocListener
import FwupdPoc.MainService

/-!
# The client with the service of the app

`MainActivity` bound to `MainService`, which has a process of its own. The buttons call the service,
the service calls the listeners that the activity has registered, and these log. The service of
`FwupdPoc.MainService` does not know what happens during a callback; here it is known: the listeners
of this client log and return, so no trigger is disturbed.

What the user sees is a machine without lists, iterators and callbacks: `Board` counts the
registrations since the service's process was started, and a trigger shows its events that many
times. The activity and the service are that machine (`AppState.run_board`).

Each call brings new objects and each connection a new proxy, and what `toString` returns for them
is new as well. So the texts of objects are given for every message, by its number in the log.
-/

namespace FwupdPoc.MainActivity

open Utf16 KotlinText FailFast

/-! ## Callbacks -/

/-- A bundle of strings. -/
def stringBundle (entries : List (String × String)) : BaseBundle :=
  entries.foldr (fun entry rest => .entry (some (units entry.1)) (.string (units entry.2)) rest)
    .empty

/-- What the client receives of a call that the service makes. -/
def received : ListenerEvent → PocCallback
  | .onChanged => .onChanged
  | .onDeviceAdded device =>
    .onDeviceAdded ⟨BitVec.ofInt 32 device.id, BitVec.ofInt 32 device.ido, some (units device.path)⟩
  | .onDeepExample de =>
    .onDeepExample
      { other := de.other.map fun other =>
          ⟨BitVec.ofInt 32 other.id, some (units other.example)⟩
        id := BitVec.ofInt 32 de.id
        example' := some (units de.example) }
  | .onParams int_param double_param string_param bool_param =>
    .onParams (BitVec.ofInt 32 int_param) double_param (string_param.map units) bool_param
  | .onBundles count bundles status =>
    .onBundles (BitVec.ofNat 32 count)
      (some (bundles.map fun bundle => some (stringBundle bundle))) (some (units status))

/-- What happens to the activity, and the buttons for the service. -/
inductive AppEvent where
  | connectToAppService (bindService : Bool)
  | onServiceConnected
  | onServiceDisconnected
  | serviceDied
  | registerListener
  | triggerChange
  | triggerDeviceAdded
  deriving DecidableEq

section App

variable (platform : Platform) (texts : Nat → ObjectTexts) (serviceText : Nat → Units)

/-- What the listeners log for calls of the service, as messages from number `first` on. -/
def eventMessages (first : Nat) (events : List ListenerEvent) : List Units :=
  (events.zipIdx first).map fun numbered =>
    PocCallback.message platform (texts numbered.2) (received numbered.1)

/-! ## The activity and the service -/

/-- The service, if its process is there, whether `mPocService` is set, and what has been logged. -/
structure AppState where
  service : Option MainService
  bound : Bool
  messages : List Units

namespace AppState

/-- Nothing is bound, and no service is started. -/
def start : AppState := ⟨none, false, []⟩

/-- `v` and `w`. -/
def log (message : Units) (s : AppState) : AppState :=
  { s with messages := s.messages ++ [message] }

/-- A call on `mPocService`, if it is set. The listeners of the client log and return. An exception
is not caught: `none`. -/
def call (serviceCall : ServiceCall) (s : AppState) : Option AppState :=
  if s.bound then
    match s.service with
    | none => none
    | some service =>
      match serviceCall.run (fun _ => .plain) service with
      | some (none, service') =>
        let made := service'.calls.drop service.calls.length
        some { s with
          service := some service'
          messages := s.messages ++
            eventMessages platform texts s.messages.length (made.map ListenerCall.event) }
      | _ => none
  else some s

/-- The identity of the listener that is registered next: each press makes a new object. -/
def nextListener (s : AppState) : Listener :=
  match s.service with
  | none => 0
  | some service => service.listeners.elements.length

/-- One event. -/
def step (s : AppState) : AppEvent → Option AppState
  | .connectToAppService bindService =>
    some (s.log (units (if bindService then "binding app service"
      else "failed to bind app service")))
  | .onServiceConnected =>
    let service := s.service.getD ⟨⟨[], 0⟩, []⟩
    some (log (units "app service = " ++ serviceText s.messages.length)
      { s with service := some service, bound := true })
  | .onServiceDisconnected =>
    some { s.log (units "service disco") with bound := false }
  | .serviceDied => some { s with service := none }
  | .registerListener =>
    (s.call platform texts (.addListener s.nextListener)).map
      (log (units "register listener "))
  | .triggerChange => (s.log (units "call triggerChanged")).call platform texts .triggerChange
  | .triggerDeviceAdded =>
    (s.log (units "call triggerDeviceAdded")).call platform texts .triggerDeviceAdded

/-- A run of events. `none` is the end of the app by an exception. -/
def run : List AppEvent → AppState → Option AppState
  | [], s => some s
  | event :: rest, s => (s.step platform texts serviceText event).bind (run rest)

end AppState

/-! ## What the user sees -/

/-- The number of registrations since the start of the service's process, whether the service is
bound, and the log. -/
structure Board where
  registered : Option Nat
  bound : Bool
  messages : List Units

namespace Board

/-- A call on the service: its effect on the number of registrations, and what is shown for each. -/
def call (register : Nat) (events : List ListenerEvent) (b : Board) : Option Board :=
  if b.bound then
    b.registered.map fun n =>
      { b with
        registered := some (n + register)
        messages := b.messages ++
          eventMessages platform texts b.messages.length (List.replicate n events).flatten }
  else some b

/-- A line in the log. -/
def log (message : Units) (b : Board) : Board := { b with messages := b.messages ++ [message] }

/-- One event. -/
def step (b : Board) : AppEvent → Option Board
  | .connectToAppService bindService =>
    some (b.log (units (if bindService then "binding app service"
      else "failed to bind app service")))
  | .onServiceConnected =>
    some (log (units "app service = " ++ serviceText b.messages.length)
      { b with registered := some (b.registered.getD 0), bound := true })
  | .onServiceDisconnected =>
    some { b.log (units "service disco") with bound := false }
  | .serviceDied => some { b with registered := none }
  | .registerListener => (b.call platform texts 1 []).map (log (units "register listener "))
  | .triggerChange =>
    (b.log (units "call triggerChanged")).call platform texts 0 changeEvents
  | .triggerDeviceAdded =>
    (b.log (units "call triggerDeviceAdded")).call platform texts 0 deviceAddedEvents

/-- A run of events. -/
def run : List AppEvent → Board → Option Board
  | [], b => some b
  | event :: rest, b => (b.step platform texts serviceText event).bind (run rest)

end Board

/-- What the user sees of a state. -/
def AppState.board (s : AppState) : Board :=
  ⟨s.service.map fun service => service.listeners.elements.length, s.bound, s.messages⟩

/-! ## The refinement -/

/-- The events of a round come once for each listener. -/
theorem map_event_roundCalls (events : List ListenerEvent) (listeners : List Listener) :
    (roundCalls events listeners).map ListenerCall.event =
      (List.replicate listeners.length events).flatten := by
  have hblocks : ∀ (entries : List (Listener × Nat)),
      (entries.flatMap fun _ => events) = (List.replicate entries.length events).flatten := by
    intro entries
    rw [← List.map_const', List.flatMap]
  rw [roundCalls, List.map_flatMap, ← List.length_zipIdx (i := 0), ← hblocks]
  refine List.flatMap_congr fun entry _ => ?_
  rw [List.map_map]
  exact List.map_id events

/-- The listeners of this client disturb no trigger. -/
theorem notify_plain (events : List ListenerEvent) (s : MainService) :
    notify (fun _ => .plain) events s =
      some (none, { s with calls := s.calls ++ roundCalls events s.listeners.elements }) :=
  notify_undisturbed (fun _ => .plain) fun _ _ => rfl

/-- A trigger shows its events to the user once for each registration. -/
theorem AppState.board_call_trigger {call : ServiceCall} {events : List ListenerEvent}
    (hrun : ∀ s, call.run (fun _ => .plain) s = notify (fun _ => .plain) events s)
    (s : AppState) :
    (s.call platform texts call).map AppState.board = s.board.call platform texts 0 events := by
  obtain ⟨service, bound, messages⟩ := s
  cases bound with
  | false => rfl
  | true =>
    cases service with
    | none => rfl
    | some service =>
      unfold AppState.call Board.call AppState.board
      simp only [hrun, notify_plain, List.drop_left, map_event_roundCalls]
      rfl

/-- A registration counts. -/
theorem AppState.board_call_addListener (listener : Listener) (s : AppState) :
    (s.call platform texts (.addListener listener)).map AppState.board =
      s.board.call platform texts 1 [] := by
  obtain ⟨service, bound, messages⟩ := s
  cases bound with
  | false => rfl
  | true =>
    cases service with
    | none => rfl
    | some service =>
      unfold AppState.call Board.call AppState.board
      simp [ServiceCall.run, ArrayList.add, eventMessages]

/-- One event. -/
theorem AppState.step_board (s : AppState) (event : AppEvent) :
    (s.step platform texts serviceText event).map AppState.board =
      s.board.step platform texts serviceText event := by
  cases event with
  | connectToAppService bindService => rfl
  | onServiceConnected =>
    obtain ⟨service, bound, messages⟩ := s
    cases service <;> rfl
  | onServiceDisconnected => rfl
  | serviceDied => rfl
  | registerListener =>
    rw [AppState.step, Board.step, ← AppState.board_call_addListener platform texts s.nextListener,
      Option.map_map, Option.map_map]
    rfl
  | triggerChange => exact AppState.board_call_trigger platform texts (fun _ => rfl) _
  | triggerDeviceAdded => exact AppState.board_call_trigger platform texts (fun _ => rfl) _

/-- **In every run of the activity with the service, through restarts of the service and until an
exception ends the app, the log is the one of the machine that counts registrations: each trigger
shows its whole sequence of events once for each listener that was registered since the service's
process was started.** -/
theorem AppState.run_board (events : List AppEvent) (s : AppState) :
    (AppState.run platform texts serviceText events s).map AppState.board =
      Board.run platform texts serviceText events s.board := by
  induction events generalizing s with
  | nil => rfl
  | cons event rest ih =>
    rw [AppState.run, Board.run, ← AppState.step_board]
    cases s.step platform texts serviceText event with
    | none => rfl
    | some s' => exact ih s'

end App

end FwupdPoc.MainActivity
