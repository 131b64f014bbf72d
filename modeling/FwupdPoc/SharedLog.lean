import FwupdPoc.MainActivity.Messages
import FwupdPoc.UsbActivity

/-!
# The log of both activities

`logText` is a variable of the file of `UsbActivity`, and `MainActivity` logs to it as well. The
messages of both activities can be told apart by their first lines, whatever the order in which they
were logged (`readLogText_logOf`): each paragraph is read by the reader of its activity, and lines
are shown in the same way by both.
-/

namespace FwupdPoc.SharedLog

open Utf16 KotlinText
open MainActivity (Platform LogEvent ShownMessage ResultEvent FwupdCallback logOf)

/-! ## Both activities -/

/-- What an activity logs for. -/
inductive ActivityEvent where
  | main (event : LogEvent)
  | usb (event : UsbActivity.Event)

/-- What is shown in the log. -/
inductive Shown where
  | message (m : ShownMessage)
  | usb (r : UsbActivity.Record)

/-- What is shown of a message of `UsbActivity`: a line is shown as a line of `MainActivity` is. -/
def ofRecord : UsbActivity.Record → Shown
  | .line text => .message (.record ⟨text, none⟩)
  | r => .usb r

/-- The first lines of the paragraphs of lists of `UsbActivity`. -/
def listHeadings : List Units :=
  [units "]", units "getDeviceList = [", units "getAccessoryList = ["]

/-- Whether the lines are a paragraph of a list or a device of `UsbActivity`. -/
def isUsb : List Units → Bool
  | [] => false
  | first :: rest =>
    decide (first ∈ listHeadings) ||
      (!rest.isEmpty && (decide (units "+ " <+: first) || decide (units "- " <+: first)))

/-- Reads a paragraph. -/
def readParagraph (paragraph : List Units) : Option (List Shown) :=
  if isUsb paragraph then (UsbActivity.readParagraph paragraph).map (List.map ofRecord)
  else (MainActivity.readParagraph paragraph).map (List.map .message)

/-- Reads the log. -/
def readLogText (logText : Units) : Option (List Shown) :=
  readAll readParagraph (paragraphs logText)

namespace ActivityEvent

variable (platform : Platform)

/-- The messages that are logged. -/
def messages : ActivityEvent → List Units
  | .main event => event.messages platform
  | .usb event => UsbActivity.messages event

/-- What is shown of the messages. -/
def shown : ActivityEvent → List Shown
  | .main event => (event.shown platform).map .message
  | .usb event => (UsbActivity.records event).map ofRecord

/-- The paragraphs, the last one first. -/
def pieces : ActivityEvent → List Units
  | .main event => (event.messages platform).reverse
  | .usb event => UsbActivity.pieces event

/-- The event of the activity can be read, and a line is not taken for that of a list. -/
def Readable : ActivityEvent → Prop
  | .main event =>
    event.Readable platform ∧ ∀ message, event = .text message → message ∉ listHeadings
  | .usb event => event.Readable

end ActivityEvent

/-! ## Messages of `MainActivity` -/

/-- What is at the start of the messages of `MainActivity` that are not texts of one line. -/
def headings : List Units :=
  ["getDevices returned ", "getDevices error: ", "getProperties returned ",
    "getProperties error: ", "getBundles returned ", "getBundleMatrix returned ",
    "getIntArray returned ", "getStrings returned ", "getMaybeStrings returned ",
    "getBools returned ", "getString returned ", "setString sent ", "getInt returned ",
    "setInt returned ", "listener changed", "listener device added", "listener deep example",
    "listener params", "listener bundles", "device added", "device removed", "device changed",
    "device request", "properties changed", "percentage: ", "daemon status: "].map units

/-- They do not start like the paragraphs of lists and devices. -/
theorem headings_ne : ∀ heading ∈ headings, 12 ≤ heading.length ∧
    heading.take 12 ∉ listHeadings.map (List.take 12) ∧
    ¬ units "+ " <+: heading ∧ ¬ units "- " <+: heading := by
  decide +kernel

/-- Lines of which the first one starts so are not taken for a list or a device. -/
theorem isUsb_eq_false {heading : Units} (h : heading ∈ headings) {paragraph : List Units}
    (hfirst : ∀ line ∈ paragraph.head?, heading <+: line) : isUsb paragraph = false := by
  cases paragraph with
  | nil => rfl
  | cons line rest =>
    obtain ⟨hlength, hlists, hplus, hminus⟩ := headings_ne heading h
    obtain ⟨text, rfl⟩ := hfirst line rfl
    have hlist : heading ++ text ∉ listHeadings := by
      intro hmem
      refine hlists ?_
      rw [← List.take_append_of_le_length hlength]
      exact List.mem_map_of_mem hmem
    have hmark : ∀ mark : Units, mark.length ≤ 12 → ¬ mark <+: heading →
        ¬ mark <+: heading ++ text := fun mark hmark hnot hprefix =>
      hnot (List.prefix_of_prefix_length_le hprefix (List.prefix_append _ _)
        (Nat.le_trans hmark hlength))
    have hplus' := hmark (units "+ ") (by decide) hplus
    have hminus' := hmark (units "- ") (by decide) hminus
    simp [isUsb, hlist, hplus', hminus']

/-- A message that is not a text of one line starts with one of the headings. -/
theorem shown_headings {platform : Platform} {event : LogEvent} {m : ShownMessage}
    (hm : m ∈ event.shown platform) :
    (∃ message, event = .text message ∧ m = .record ⟨message, none⟩) ∨
      ∃ heading ∈ headings, ∀ line ∈ m.lines.head?, heading <+: line := by
  have hstarts : ∀ (heading : String) {text : Units} {rest : List Units},
      units heading ∈ headings → m.lines = (units heading ++ text) :: rest →
        ∃ h ∈ headings, ∀ line ∈ m.lines.head?, h <+: line := by
    rintro heading text rest hheading hlines
    refine ⟨_, hheading, fun line hline => ?_⟩
    rw [hlines] at hline
    cases hline
    exact List.prefix_append _ _
  have hexact : ∀ (heading : String) {rest : List Units}, units heading ∈ headings →
      m.lines = units heading :: rest → ∃ h ∈ headings, ∀ line ∈ m.lines.head?, h <+: line := by
    intro heading rest hheading hlines
    rw [← List.append_nil (units heading)] at hlines
    exact hstarts heading hheading hlines
  cases event with
  | text message => exact .inl ⟨message, rfl, List.mem_singleton.1 hm⟩
  | fwupd callback =>
    obtain ⟨r, hr, rfl⟩ := List.mem_map.1 hm
    refine .inr ?_
    cases callback with
    | onChanged =>
      obtain rfl := List.mem_singleton.1 hr
      exact hexact "listener changed" (List.mem_map_of_mem (by simp)) rfl
    | onDeviceAdded =>
      obtain rfl := List.mem_singleton.1 hr
      exact hexact "device added" (List.mem_map_of_mem (by simp)) rfl
    | onDeviceRemoved =>
      obtain rfl := List.mem_singleton.1 hr
      exact hexact "device removed" (List.mem_map_of_mem (by simp)) rfl
    | onDeviceChanged =>
      obtain rfl := List.mem_singleton.1 hr
      exact hexact "device changed" (List.mem_map_of_mem (by simp)) rfl
    | onDeviceRequest =>
      obtain rfl := List.mem_singleton.1 hr
      exact hexact "device request" (List.mem_map_of_mem (by simp)) rfl
    | onPropertiesChanged properties =>
      cases properties with
      | none => exact absurd hr List.not_mem_nil
      | some properties =>
        rcases List.mem_append.1 hr with hknown | hother
        · obtain ⟨line, hline, rfl⟩ := List.mem_map.1 hknown
          rcases MainActivity.mem_takeKnownProperties hline with ⟨value, rfl⟩ | ⟨value, rfl⟩
          · exact hstarts "percentage: " (List.mem_map_of_mem (by simp))
              (congrArg (fun line => [line]) (List.append_assoc _ _ _))
          · exact hstarts "daemon status: " (List.mem_map_of_mem (by simp)) rfl
        · split at hother
          · exact absurd hother List.not_mem_nil
          · obtain rfl := List.mem_singleton.1 hother
            exact hexact "properties changed" (List.mem_map_of_mem (by simp)) rfl
  | poc texts callback =>
    obtain rfl := List.mem_singleton.1 hm
    refine .inr ?_
    cases callback with
    | onChanged => exact hexact "listener changed" (List.mem_map_of_mem (by simp)) rfl
    | onDeviceAdded => exact hexact "listener device added" (List.mem_map_of_mem (by simp)) rfl
    | onDeepExample => exact hexact "listener deep example" (List.mem_map_of_mem (by simp)) rfl
    | onParams => exact hexact "listener params" (List.mem_map_of_mem (by simp)) rfl
    | onBundles => exact hexact "listener bundles" (List.mem_map_of_mem (by simp)) rfl
  | result event =>
    obtain rfl := List.mem_singleton.1 hm
    have hheading : units event.heading ∈ headings := by
      cases event <;> exact List.mem_map_of_mem (by simp [ResultEvent.heading])
    obtain ⟨text, rest, hlines⟩ := MainActivity.Result.shown_lines platform (units event.heading)
      event.result
    exact .inr (hstarts event.heading hheading hlines)

/-! ## The log -/

/-- A line that does not start like the heading of a list or a closing bracket is read in the same
way by both. -/
theorem readParagraph_line {c : BitVec 16} {text : Units} (h : c ∉ [0x5D, 0x67]) :
    readParagraph [c :: text] =
      (UsbActivity.readParagraph [c :: text]).map (List.map ofRecord) := by
  obtain ⟨hbracket, hdevices, haccessories⟩ := @UsbActivity.ne_heading c text h
  have hline : isUsb [c :: text] = false := by
    simp [isUsb, listHeadings, hbracket, hdevices, haccessories]
  rw [readParagraph, hline, if_neg Bool.false_ne_true, UsbActivity.readParagraph_line h]
  rfl

/-- A paragraph of `UsbActivity` is read by its reader, or is a line. -/
theorem readParagraph_pieceLines {event : UsbActivity.Event} {paragraph : List Units}
    (h : paragraph ∈ UsbActivity.pieceLines event) :
    readParagraph paragraph = (UsbActivity.readParagraph paragraph).map (List.map ofRecord) := by
  have hlist : ∀ heading ∈ listHeadings, ∀ rest,
      readParagraph (heading :: rest) =
        (UsbActivity.readParagraph (heading :: rest)).map (List.map ofRecord) := by
    intro heading hheading rest
    have husb : isUsb (heading :: rest) = true := by simp [isUsb, hheading]
    exact if_pos husb
  have hpieces : ∀ heading ∈ listHeadings, ∀ rest, paragraph ∈ [heading :: rest, [units "]"]] →
      readParagraph paragraph = (UsbActivity.readParagraph paragraph).map (List.map ofRecord) := by
    intro heading hheading rest hmem
    rcases List.mem_cons.1 hmem with rfl | hmem
    · exact hlist heading hheading rest
    · obtain rfl := List.mem_singleton.1 hmem
      exact hlist _ List.mem_cons_self []
  cases event with
  | onCreate mService usbReceiver =>
    simp only [UsbActivity.pieceLines, UsbActivity.messages, List.reverse_cons, List.reverse_nil,
      List.nil_append, List.cons_append, List.map_cons, List.map_nil, List.mem_cons,
      List.not_mem_nil, or_false] at h
    rcases h with rfl | rfl | rfl
    · exact readParagraph_line (by decide)
    · exact readParagraph_line (by decide)
    · exact readParagraph_line (by decide)
  | onDestroy =>
    obtain rfl := List.mem_singleton.1 h
    exact readParagraph_line (by decide)
  | onReceive action device =>
    have hdevice : ∀ (d : UsbActivity.ShownDevice) (mark : Units),
        mark = units "+ " ∨ mark = units "- " → paragraph ∈ [d.lines mark] →
          readParagraph paragraph =
            (UsbActivity.readParagraph paragraph).map (List.map ofRecord) := by
      intro d mark hmark hmem
      obtain rfl := List.mem_singleton.1 hmem
      have husb : isUsb (d.lines mark) = true := by
        rcases hmark with rfl | rfl <;> simp [isUsb, UsbActivity.ShownDevice.lines]
      exact if_pos husb
    cases device with
    | none => cases action <;> exact absurd h List.not_mem_nil
    | some device =>
      cases action with
      | usbDeviceAttached => exact hdevice device.shown _ (.inl rfl) h
      | usbDeviceDetached => exact hdevice device.shown _ (.inr rfl) h
      | other => exact absurd h List.not_mem_nil
  | getDeviceList devices =>
    exact hpieces _ (List.mem_cons_of_mem _ List.mem_cons_self) _ h
  | getAccessoryList accessories =>
    exact hpieces _ (List.mem_cons_of_mem _ (List.mem_cons_of_mem _ List.mem_cons_self)) _ h

/-- The paragraphs of an event are read. -/
theorem ActivityEvent.Readable.readAs {platform : Platform} {event : ActivityEvent}
    (h : event.Readable platform) :
    ReadAs readParagraph (event.pieces platform) (event.shown platform).reverse := by
  cases event with
  | main event =>
    obtain ⟨hreadable, htext⟩ := h
    have hmain : ∀ paragraph ∈ (event.shown platform).reverse.map ShownMessage.lines,
        readParagraph paragraph =
          (MainActivity.readParagraph paragraph).map (List.map .message) := by
      intro paragraph hparagraph
      obtain ⟨m, hm, rfl⟩ := List.mem_map.1 hparagraph
      refine if_neg (Bool.eq_false_iff.1 ?_)
      rcases shown_headings (List.mem_reverse.1 hm) with
        ⟨message, rfl, rfl⟩ | ⟨heading, hmem, hfirst⟩
      · have hlist := htext message rfl
        simp [ShownMessage.lines, MainActivity.Record.lines, isUsb, hlist]
      · exact isUsb_eq_false hmem hfirst
    rw [ActivityEvent.shown, ← List.map_reverse]
    exact readAs_of_paragraphs hreadable.paragraphs (readAll_map _ hmain hreadable.readAll)
  | usb event =>
    rw [ActivityEvent.shown, ← List.map_reverse]
    exact readAs_of_paragraphs (UsbActivity.Event.Readable.paragraphs h)
      (readAll_map _ (fun paragraph => readParagraph_pieceLines)
        (UsbActivity.readAll_pieceLines event))

/-- The messages of an event are its paragraphs, each with an empty line behind it. -/
theorem messages_pieces (platform : Platform) (event : ActivityEvent) :
    (event.messages platform).reverse.flatMap (· ++ units "\n\n") =
      (event.pieces platform).flatMap (· ++ units "\n\n") := by
  cases event with
  | main event => rfl
  | usb event => exact UsbActivity.messages_pieces event

/-- **Whatever the order in which the two activities log, one can read from the one text what all
messages in it show, in their order: the lists and devices of the one, the bundles, arrays and
templates of the other, and the lines of both, which are the same to the reader.** -/
theorem readLogText_logOf {platform : Platform} {events : List ActivityEvent}
    (h : ∀ event ∈ events, event.Readable platform) :
    readLogText (logOf (events.flatMap (ActivityEvent.messages platform))) =
      some (events.flatMap (ActivityEvent.shown platform)).reverse := by
  rw [readLogText, MainActivity.logOf_flatMap,
    List.flatMap_congr fun event _ => messages_pieces platform event]
  exact readAll_events fun event hevent => (h event hevent).readAs

/-- A keyboard is detached while a device of the daemon is added. -/
theorem readLogText_logOf_keyboard :
    let keyboard : UsbActivity.UsbDevice :=
      ⟨units "/dev/bus/usb/001/002", 0x46D, 0xC31C, some (units "Logi"), none⟩
    readLogText (logOf ([.main (.text (units "register listener")),
        .usb (.onReceive .usbDeviceDetached (some keyboard)),
        .main (.fwupd (.onDeviceAdded (some MainActivity.dockDevice)))].flatMap
          (ActivityEvent.messages MainActivity.androidPlatform))) =
      some ((LogEvent.shown MainActivity.androidPlatform
          (.fwupd (.onDeviceAdded (some MainActivity.dockDevice)))).map .message ++
        [.usb (.detached keyboard.shown),
          .message (.record ⟨units "register listener", none⟩)]) := by
  intro keyboard
  have hregister : (ActivityEvent.main (.text (units "register listener"))).Readable
      MainActivity.androidPlatform := by
    have hfull : IsFull (units "register listener") := by decide
    refine ⟨hfull, ?_⟩
    rintro _ ⟨⟩
    decide
  have hkeyboard : (ActivityEvent.usb (.onReceive .usbDeviceDetached (some keyboard))).Readable
      MainActivity.androidPlatform := by
    rintro _ ⟨⟩
    exact ⟨by decide, by decide, by decide⟩
  have hdock : (ActivityEvent.main
      (.fwupd (.onDeviceAdded (some MainActivity.dockDevice)))).Readable
        MainActivity.androidPlatform :=
    ⟨MainActivity.dockDevice_readable, fun _ h => by cases h⟩
  exact readLogText_logOf (List.forall_mem_cons.2 ⟨hregister,
    List.forall_mem_cons.2 ⟨hkeyboard, List.forall_mem_singleton.2 hdock⟩⟩)

end FwupdPoc.SharedLog
