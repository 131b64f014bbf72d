import FwupdPoc.Lib.SharedCell
import FwupdPoc.Lib.Utf16

/-!
# The log of the activities

`MainActivity` and `UsbActivity` put their messages in front of one text, `logText`: `log` reads it
and then sets it. The main thread logs, the threads on which the listeners are called do, and so
does the thread that installs; nothing orders a `log` of one thread with that of another. The
reading and the setting are the steps of `SharedCell.run`, for the update `log`.

Whatever the order of the steps, the log holds whole messages (`run_logText`), and since a longer
list of messages is a longer text, one can tell from the text that a message is missing
(`logOf_length_lt`).
-/

namespace FwupdPoc.MainActivity

open Utf16 SharedCell

/-- `log`: the text in place of `logText`. -/
def log (message logText : Units) : Units := message ++ units "\n\n" ++ logText

/-- The log of these messages: the last one comes first. -/
def logOf (messages : List Units) : Units :=
  messages.reverse.flatMap fun message => message ++ units "\n\n"

/-- The messages of events. -/
theorem logOf_flatMap {ε : Type} (messages : ε → List Units) (events : List ε) :
    logOf (events.flatMap messages) =
      events.reverse.flatMap fun event => (messages event).reverse.flatMap (· ++ units "\n\n") := by
  rw [logOf, List.reverse_flatMap, List.flatMap_assoc]
  rfl

/-- Messages logged one after the other. -/
theorem applyAll_log (messages : List Units) (logText : Units) :
    applyAll log logText messages = logOf messages ++ logText := by
  induction messages generalizing logText with
  | nil => rfl
  | cons message messages ih =>
    have hfirst : applyAll log logText (message :: messages) =
        applyAll log (log message logText) messages := rfl
    have hlast : logOf (message :: messages) = logOf messages ++ (message ++ units "\n\n") := by
      rw [logOf, List.reverse_cons, List.flatMap_append, List.flatMap_singleton]
      rfl
    rw [hfirst, ih, hlast, log, List.append_assoc (logOf messages)]

/-- Fewer messages are a shorter log. -/
theorem logOf_length_lt {kept messages : List Units} (hsub : kept.Sublist messages)
    (hne : kept ≠ messages) : (logOf kept).length < (logOf messages).length := by
  have hlength : ∀ messages : List Units, (logOf messages).length =
      (messages.map fun message => message.length + 2).sum := by
    intro messages
    rw [logOf, List.length_flatMap, List.map_reverse, List.sum_reverse]
    congr 1
    exact List.map_congr_left fun message _ => List.length_append
  rw [hlength, hlength]
  clear hlength
  induction hsub with
  | slnil => exact absurd rfl hne
  | @cons kept messages message hsub ih =>
    rw [List.map_cons, List.sum_cons]
    rcases eq_or_ne kept messages with rfl | hne'
    · omega
    · have := ih hne'
      omega
  | @cons_cons kept messages message hsub ih =>
    rw [List.map_cons, List.sum_cons, List.map_cons, List.sum_cons]
    have := ih fun heq => hne (by rw [heq])
    omega

/-- The log holds some of the messages that were set, whole and in their order. -/
theorem run_logText {events : List (Event Units)} {s : State Units Units}
    (hrun : run log events (.idle []) = some s) :
    ∃ k, run append events (.idle []) = some k ∧ s.cell = logOf k.cell ∧
      k.cell.Sublist (written events noneBegun) := by
  obtain ⟨k, hk, hcell⟩ := run_eq_foldl hrun
  rw [applyAll_log, List.append_nil] at hcell
  exact ⟨k, hk, hcell, kept_sublist hk⟩

/-- **Whatever the order in which the threads read and set the log, it holds whole messages, each at
most as often as it was set and in the order they were set in, and it holds all of them exactly if
no thread sets the log between the reading and the setting of another.** -/
theorem log_complete_iff {events : List (Event Units)} {s : State Units Units}
    (hrun : run log events (.idle []) = some s) :
    (∃ kept, kept.Sublist (written events noneBegun) ∧ s.cell = logOf kept) ∧
      (s.cell = logOf (written events noneBegun) ↔ Exclusive events noneFresh) := by
  obtain ⟨k, hk, hcell, hsub⟩ := run_logText hrun
  refine ⟨⟨k.cell, hsub, hcell⟩, ?_⟩
  rw [← kept_eq_iff hk, hcell]
  refine ⟨fun heq => ?_, fun heq => by rw [heq]⟩
  by_contra hne
  exact Nat.ne_of_lt (logOf_length_lt hsub hne) (congrArg List.length heq)

/-- The message of a listener is lost: the main thread has read the log before. -/
def lostMessage : List (Event Units) :=
  [.read 0 (units "app service"), .read 1 (units "listener changed"), .write 1, .write 0]

theorem log_complete_iff_lostMessage :
    ∃ s, run log lostMessage (.idle []) = some s ∧ s.cell = units "app service\n\n" ∧
      ¬ Exclusive lostMessage noneFresh ∧
      ((∃ kept, kept.Sublist (written lostMessage noneBegun) ∧ s.cell = logOf kept) ∧
        (s.cell = logOf (written lostMessage noneBegun) ↔ Exclusive lostMessage noneFresh)) :=
  ⟨_, rfl, by decide, by decide, log_complete_iff rfl⟩

end FwupdPoc.MainActivity
