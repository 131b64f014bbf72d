import FwupdPoc.Lib.Blocks
import FwupdPoc.Lib.Hexadecimal
import FwupdPoc.MainActivity.Intact
import FwupdPoc.MainActivity.Log

/-!
# `UsbActivity`

The messages about USB devices: the broadcasts of attached and detached devices, and the lists that
the buttons show. A device is shown by `deviceToString`, whose template puts each text of the device
in a line of its own. What is logged can be read back if these texts are lines
(`readLog_logOf_messages`): a device is four lines (`readDevices_lines`), and the message of a list,
which has an empty line in it, is two paragraphs (`messages_pieces`). `MainActivity` logs to the
same variable; the log here has the messages of this activity.
-/

namespace FwupdPoc.UsbActivity

open Utf16 KotlinText
open MainActivity (nullableText spaces logOf logOf_flatMap)

/-! ## Devices -/

/-- `android.hardware.usb.UsbDevice`. -/
structure UsbDevice where
  deviceName : Units
  vendorId : BitVec 32
  productId : BitVec 32
  manufacturerName : Option Units
  productName : Option Units

/-- `String.format("%04x:%04x", …)`. -/
def formatIds (vendorId productId : BitVec 32) : Units :=
  hexText 4 vendorId.toNat ++ units ":" ++ hexText 4 productId.toNat

/-- `deviceToString`. -/
def deviceToString (device : UsbDevice) : Units :=
  trimMargin (rawTemplate (spaces 12)
    [device.deviceName,
      units "    " ++ formatIds device.vendorId device.productId,
      units "    " ++ nullableText device.manufacturerName,
      units "    " ++ nullableText device.productName])

/-! ## Events -/

/-- The action of a broadcast. -/
inductive BroadcastAction where
  | usbDeviceAttached | usbDeviceDetached | other
  deriving DecidableEq

/-- What the activity logs for: its creation, with the texts of the service and of the receiver,
its end, a broadcast with the device in it, if there is one, and the buttons with the devices, and
the texts of the accessories, that the service returns, if there is a service. -/
inductive Event where
  | onCreate (mService usbReceiver : Units)
  | onDestroy
  | onReceive (action : BroadcastAction) (device : Option UsbDevice)
  | getDeviceList (devices : Option (List UsbDevice))
  | getAccessoryList (accessories : Option (List Units))

/-- The message of a list. -/
def listMessage (heading : String) (items : List Units) : Units :=
  units heading ++ units "\n" ++ (items.flatMap fun item => units "  " ++ item ++ units "\n") ++
    units "\n]"

/-- The messages that are logged. -/
def messages : Event → List Units
  | .onCreate mService usbReceiver =>
    [units " - - - Starting fwupd_usb_poc client - - - ",
      units "usb = " ++ mService,
      units "usb broadcast receiver = " ++ usbReceiver]
  | .onDestroy => [units " - - - Stopping fwupd_usb_poc client - - - "]
  | .onReceive .usbDeviceAttached (some device) => [units "+ " ++ deviceToString device]
  | .onReceive .usbDeviceDetached (some device) => [units "- " ++ deviceToString device]
  | .onReceive _ _ => []
  | .getDeviceList devices =>
    [listMessage "getDeviceList = [" ((devices.getD []).map deviceToString)]
  | .getAccessoryList accessories => [listMessage "getAccessoryList = [" (accessories.getD [])]

/-! ## What is shown -/

/-- What is shown of a device. -/
structure ShownDevice where
  deviceName : Units
  vendorId : BitVec 32
  productId : BitVec 32
  manufacturerName : Units
  productName : Units

/-- What is shown of a device: names that are null are shown as texts. -/
def UsbDevice.shown (device : UsbDevice) : ShownDevice where
  deviceName := device.deviceName
  vendorId := device.vendorId
  productId := device.productId
  manufacturerName := nullableText device.manufacturerName
  productName := nullableText device.productName

/-- What a message says. -/
inductive Record where
  | line (text : Units)
  | attached (device : ShownDevice)
  | detached (device : ShownDevice)
  | devices (devices : List ShownDevice)
  | accessories (accessories : List Units)

/-- What the messages of an event say. -/
def records : Event → List Record
  | .onReceive .usbDeviceAttached (some device) => [.attached device.shown]
  | .onReceive .usbDeviceDetached (some device) => [.detached device.shown]
  | .onReceive _ _ => []
  | .getDeviceList devices => [.devices ((devices.getD []).map UsbDevice.shown)]
  | .getAccessoryList accessories => [.accessories (accessories.getD [])]
  | event => (messages event).map .line

/-- The texts of a device are lines. -/
structure ShownDevice.Readable (device : ShownDevice) : Prop where
  deviceName : IsLine device.deviceName
  manufacturerName : IsLine device.manufacturerName
  productName : IsLine device.productName

/-- The texts in the messages of an event are lines. -/
def Event.Readable : Event → Prop
  | .onCreate mService usbReceiver => IsLine mService ∧ IsLine usbReceiver
  | .onDestroy => True
  | .onReceive _ device => ∀ d ∈ device, d.shown.Readable
  | .getDeviceList devices => ∀ device ∈ devices.getD [], device.shown.Readable
  | .getAccessoryList accessories => ∀ accessory ∈ accessories.getD [], IsLine accessory

/-- The lines of a device, behind two characters. -/
def ShownDevice.lines (device : ShownDevice) (mark : Units) : List Units :=
  [mark ++ device.deviceName,
    units "    " ++ formatIds device.vendorId device.productId,
    units "    " ++ device.manufacturerName,
    units "    " ++ device.productName]

/-! ## Reading -/

/-- Reads the line of the identifiers. -/
def readIds (line : Units) : Option (BitVec 32 × BitVec 32) :=
  match (line.drop 4).splitOn 0x3A with
  | [vendorId, productId] =>
    some (BitVec.ofNat 32 (hexValue vendorId), BitVec.ofNat 32 (hexValue productId))
  | _ => none

/-- Reads devices, of four lines each. -/
def readDevices : List Units → Option (List ShownDevice)
  | [] => some []
  | deviceName :: ids :: manufacturerName :: productName :: rest =>
    (readIds ids).bind fun (vendorId, productId) =>
      (readDevices rest).map (⟨deviceName.drop 2, vendorId, productId, manufacturerName.drop 4,
        productName.drop 4⟩ :: ·)
  | _ => none

/-- Reads a paragraph. The paragraph of a closing bracket says nothing, and one of a single line
that is not the heading of an empty list is a line. -/
def readParagraph : List Units → Option (List Record)
  | [] => none
  | first :: rest =>
    if first = units "]" then some []
    else if first = units "getDeviceList = [" then
      (readDevices rest).map fun devices => [.devices devices]
    else if first = units "getAccessoryList = [" then
      some [.accessories (rest.map (List.drop 2))]
    else if rest = [] then some [.line first]
    else if units "+ " <+: first then
      (readDevices (first :: rest)).map fun devices => devices.map .attached
    else (readDevices (first :: rest)).map fun devices => devices.map .detached

/-- Reads the log. -/
def readLog (logText : Units) : Option (List Record) := readAll readParagraph (paragraphs logText)

/-! ## Lines of devices -/

theorem isLine_formatIds (vendorId productId : BitVec 32) :
    IsLine (formatIds vendorId productId) := by
  have hunit : ∀ digit < 16, hexUnit digit ≠ lf ∧ hexUnit digit ≠ cr := by decide
  have hhex : ∀ n, IsLine (hexText 4 n) := by
    intro n
    refine ⟨fun hmem => ?_, fun hmem => ?_⟩
    · obtain ⟨digit, hdigit, heq⟩ := mem_hexText hmem
      exact (hunit digit hdigit).1 heq.symm
    · obtain ⟨digit, hdigit, heq⟩ := mem_hexText hmem
      exact (hunit digit hdigit).2 heq.symm
  have hcolon : IsLine (units ":") := by decide
  exact ((hhex _).append hcolon).append (hhex _)

/-- The identifiers are read. -/
theorem readIds_formatIds (vendorId productId : BitVec 32) :
    readIds (units "    " ++ formatIds vendorId productId) = some (vendorId, productId) := by
  have hunit : ∀ digit < 16, hexUnit digit ≠ 0x3A := by decide
  have hhex : ∀ n, (0x3A : BitVec 16) ∉ hexText 4 n := by
    intro n hmem
    obtain ⟨digit, hdigit, heq⟩ := mem_hexText hmem
    exact hunit digit hdigit heq.symm
  have hsplit : (formatIds vendorId productId).splitOn 0x3A =
      [hexText 4 vendorId.toNat, hexText 4 productId.toNat] := by
    have hids : formatIds vendorId productId =
        hexText 4 vendorId.toNat ++ 0x3A :: hexText 4 productId.toNat :=
      List.append_assoc _ _ _
    rw [hids, List.splitOn_append_cons_self_of_not_mem (hhex _), List.splitOn_eq_singleton (hhex _)]
  rw [readIds, List.drop_left' (by decide), hsplit]
  simp [hexValue_hexText]

/-- The lines of a device are lines, and none is empty. -/
theorem ShownDevice.Readable.lines {device : ShownDevice} (h : device.Readable) {mark : Units}
    (hmark : IsLine mark) (hne : mark ≠ []) :
    ∀ line ∈ device.lines mark, IsLine line ∧ line ≠ [] := by
  have hspaces : IsLine (units "    ") := by decide
  have hnonempty : units "    " ≠ [] := by decide
  have happend : ∀ {text text' : Units}, IsLine text → text ≠ [] → IsLine text' →
      IsLine (text ++ text') ∧ text ++ text' ≠ [] := by
    intro text text' htext hne htext'
    exact ⟨htext.append htext', List.append_ne_nil_of_left_ne_nil hne _⟩
  rw [ShownDevice.lines, List.forall_mem_cons, List.forall_mem_cons, List.forall_mem_cons,
    List.forall_mem_singleton]
  exact ⟨happend hmark hne h.deviceName, happend hspaces hnonempty (isLine_formatIds _ _),
    happend hspaces hnonempty h.manufacturerName, happend hspaces hnonempty h.productName⟩

/-- Devices are read. -/
theorem readDevices_lines {mark : Units} (hmark : mark.length = 2) (devices : List ShownDevice) :
    readDevices (devices.flatMap fun device => device.lines mark) = some devices := by
  induction devices with
  | nil => rfl
  | cons device devices ih =>
    rw [List.flatMap_cons, ShownDevice.lines, List.cons_append, List.cons_append, List.cons_append,
      List.cons_append, List.nil_append, readDevices, readIds_formatIds, Option.bind_some, ih,
      List.drop_left' hmark, List.drop_left' (by decide), List.drop_left' (by decide)]
    rfl

/-- A device is its lines. -/
theorem deviceToString_eq_lines {device : UsbDevice} (h : device.shown.Readable) (mark : Units) :
    mark ++ deviceToString device = joinLines (device.shown.lines mark) := by
  have hspaces : IsLine (units "    ") := by decide
  have htexts : ∀ text ∈ [device.deviceName,
      units "    " ++ formatIds device.vendorId device.productId,
      units "    " ++ nullableText device.manufacturerName,
      units "    " ++ nullableText device.productName], IsLine text := by
    rw [List.forall_mem_cons, List.forall_mem_cons, List.forall_mem_cons, List.forall_mem_singleton]
    exact ⟨h.deviceName, hspaces.append (isLine_formatIds _ _), hspaces.append h.manufacturerName,
      hspaces.append h.productName⟩
  rw [deviceToString, (trimMargin_rawTemplate_eq_iff (MainActivity.isBlank_spaces 12)
    (MainActivity.isLine_spaces 12)).2 fun text htext => (htexts text htext).stays]
  simp [joinLines, ShownDevice.lines, UsbDevice.shown]

/-! ## Paragraphs of events -/

/-- The paragraphs of the message of a list. -/
def listPieces (heading : String) (items : List Units) : List Units :=
  [units heading ++ (items.flatMap fun item => lf :: (units "  " ++ item)), units "]"]

/-- The paragraphs that an event puts into the log, the last message first. -/
def pieces : Event → List Units
  | .getDeviceList devices =>
    listPieces "getDeviceList = [" ((devices.getD []).map deviceToString)
  | .getAccessoryList accessories => listPieces "getAccessoryList = [" (accessories.getD [])
  | event => (messages event).reverse

/-- The lines of these paragraphs. -/
def pieceLines : Event → List (List Units)
  | .onReceive .usbDeviceAttached (some device) => [device.shown.lines (units "+ ")]
  | .onReceive .usbDeviceDetached (some device) => [device.shown.lines (units "- ")]
  | .getDeviceList devices =>
    [units "getDeviceList = [" ::
        (devices.getD []).flatMap fun device => device.shown.lines (units "  "),
      [units "]"]]
  | .getAccessoryList accessories =>
    [units "getAccessoryList = [" :: (accessories.getD []).map (units "  " ++ ·), [units "]"]]
  | event => (messages event).reverse.map fun message => [message]

/-- A line end may stand in front of each item instead of behind it. -/
theorem lf_flatMap_items (items : List Units) :
    lf :: (items.flatMap fun item => units "  " ++ item ++ units "\n") =
      (items.flatMap fun item => lf :: (units "  " ++ item)) ++ [lf] := by
  induction items with
  | nil => rfl
  | cons item items ih =>
    rw [List.flatMap_cons, List.flatMap_cons, List.append_assoc _ _ [lf], ← ih]
    simp only [List.append_assoc, List.cons_append]
    rfl

/-- The message of a list is its paragraphs. -/
theorem listMessage_pieces (heading : String) (items : List Units) :
    [listMessage heading items].flatMap (· ++ units "\n\n") =
      (listPieces heading items).flatMap (· ++ units "\n\n") := by
  have hopen : units heading ++ units "\n" = units heading ++ [lf] := rfl
  rw [listMessage, listPieces, hopen, List.append_assoc (units heading), List.singleton_append,
    lf_flatMap_items]
  simp only [List.flatMap_cons, List.flatMap_nil, List.append_nil, List.append_assoc]
  rfl

/-- The messages of an event are its paragraphs, each with an empty line behind it. -/
theorem messages_pieces (event : Event) :
    (messages event).reverse.flatMap (· ++ units "\n\n") =
      (pieces event).flatMap (· ++ units "\n\n") := by
  cases event with
  | onCreate | onDestroy | onReceive => rfl
  | getDeviceList | getAccessoryList => exact listMessage_pieces _ _

/-- The paragraph of a device behind its sign. -/
theorem paragraph_device {device : UsbDevice} (h : device.shown.Readable) {mark : Units}
    (hmark : IsLine mark) (hne : mark ≠ []) :
    Paragraph (mark ++ deviceToString device) (device.shown.lines mark) where
  text := deviceToString_eq_lines h mark
  lines := h.lines hmark hne
  nonempty := List.cons_ne_nil _ _

/-- The paragraph of a line. -/
theorem paragraph_line {line : Units} (h : IsLine line) (hne : line ≠ []) :
    Paragraph line [line] where
  text := (List.append_nil line).symm
  lines := List.forall_mem_singleton.2 ⟨h, hne⟩
  nonempty := List.cons_ne_nil _ _

/-- The paragraphs of a list, with the lines of each item. -/
theorem paragraphs_list {α : Type} {heading : String} (hheading : IsLine (units heading))
    (hne : units heading ≠ []) {items : List α} {text : α → Units} {texts : α → List Units}
    (h : ∀ item ∈ items, Paragraph (units "  " ++ text item) (texts item)) :
    List.Forall₂ Paragraph (listPieces heading (items.map text))
      [units heading :: items.flatMap texts, [units "]"]] := by
  have hclose : IsLine (units "]") := by decide
  refine .cons ⟨?_, ?_, List.cons_ne_nil _ _⟩
    (.cons (paragraph_line hclose (List.cons_ne_nil _ _)) .nil)
  · rw [joinLines, List.flatMap_map, List.flatMap_assoc]
    congr 1
    refine List.flatMap_congr fun item hitem => ?_
    rw [flatMap_lf (h item hitem).nonempty, (h item hitem).text]
  · rw [List.forall_mem_cons]
    refine ⟨⟨hheading, hne⟩, fun line hline => ?_⟩
    obtain ⟨item, hitem, hline⟩ := List.mem_flatMap.1 hline
    exact (h item hitem).lines line hline

/-- What an event puts into the log are paragraphs. -/
theorem Event.Readable.paragraphs {event : Event} (h : event.Readable) :
    List.Forall₂ Paragraph (pieces event) (pieceLines event) := by
  have hmark : IsLine (units "  ") := by decide
  have hnonempty : units "  " ≠ [] := by decide
  cases event with
  | onCreate mService usbReceiver =>
    have hservice : IsLine (units "usb = " ++ mService) := IsLine.append (by decide) h.1
    have hreceiver : IsLine (units "usb broadcast receiver = " ++ usbReceiver) :=
      IsLine.append (by decide) h.2
    have hstart : IsLine (units " - - - Starting fwupd_usb_poc client - - - ") := by decide
    exact .cons (paragraph_line hreceiver (List.cons_ne_nil _ _))
      (.cons (paragraph_line hservice (List.cons_ne_nil _ _))
        (.cons (paragraph_line hstart (List.cons_ne_nil _ _)) .nil))
  | onDestroy =>
    have hstop : IsLine (units " - - - Stopping fwupd_usb_poc client - - - ") := by decide
    exact .cons (paragraph_line hstop (List.cons_ne_nil _ _)) .nil
  | onReceive action device =>
    cases device with
    | none => cases action <;> exact .nil
    | some device =>
      have hplus : IsLine (units "+ ") := by decide
      have hminus : IsLine (units "- ") := by decide
      have hdevice := h device rfl
      cases action with
      | usbDeviceAttached => exact .cons (paragraph_device hdevice hplus (by decide)) .nil
      | usbDeviceDetached => exact .cons (paragraph_device hdevice hminus (by decide)) .nil
      | other => exact .nil
  | getDeviceList devices =>
    have hheading : IsLine (units "getDeviceList = [") := by decide
    exact paragraphs_list hheading (by decide) fun device hdevice =>
      paragraph_device (h device hdevice) hmark hnonempty
  | getAccessoryList accessories =>
    have hheading : IsLine (units "getAccessoryList = [") := by decide
    have hitems : ∀ accessory ∈ accessories.getD [],
        Paragraph (units "  " ++ id accessory) [units "  " ++ accessory] :=
      fun accessory haccessory => paragraph_line (hmark.append (h accessory haccessory))
        (List.append_ne_nil_of_left_ne_nil hnonempty _)
    have hlist := paragraphs_list hheading (by decide) hitems
    rwa [List.map_id, ← List.map_eq_flatMap] at hlist

/-! ## Reading the log -/

/-- What starts differently is no heading of a list and no closing bracket. -/
theorem ne_heading {c : BitVec 16} {text : Units} (h : c ∉ [0x5D, 0x67]) :
    c :: text ≠ units "]" ∧ c :: text ≠ units "getDeviceList = [" ∧
      c :: text ≠ units "getAccessoryList = [" := by
  have hheads : (units "]").head? = some 0x5D ∧ (units "getDeviceList = [").head? = some 0x67 ∧
      (units "getAccessoryList = [").head? = some 0x67 := by
    decide
  have hne : ∀ {heading : Units} {d : BitVec 16}, heading.head? = some d → d ∈ [0x5D, 0x67] →
      c :: text ≠ heading := by
    rintro _ d hhead hd rfl
    cases hhead
    exact h hd
  exact ⟨hne hheads.1 (by decide), hne hheads.2.1 (by decide), hne hheads.2.2 (by decide)⟩

/-- A line that does not start like the heading of a list or a closing bracket is read. -/
theorem readParagraph_line {c : BitVec 16} {text : Units} (h : c ∉ [0x5D, 0x67]) :
    readParagraph [c :: text] = some [.line (c :: text)] := by
  obtain ⟨hbracket, hdevices, haccessories⟩ := @ne_heading c text h
  rw [readParagraph, if_neg hbracket, if_neg hdevices, if_neg haccessories, if_pos rfl]

/-- A device behind a sign is read. -/
theorem readParagraph_device (device : ShownDevice) :
    readParagraph (device.lines (units "+ ")) = some [.attached device] ∧
      readParagraph (device.lines (units "- ")) = some [.detached device] := by
  have hread : ∀ c : BitVec 16, readDevices (device.lines [c, 0x20]) = some [device] := by
    intro c
    have hmark : [c, 0x20].length = 2 := rfl
    have hlines := readDevices_lines hmark [device]
    rwa [List.flatMap_singleton] at hlines
  have hsigns : units "+ " = [0x2B, 0x20] ∧ units "- " = [0x2D, 0x20] := by decide
  rw [hsigns.1, hsigns.2]
  refine ⟨?_, ?_⟩
  · have hfound := hread 0x2B
    obtain ⟨hbracket, hdevices, haccessories⟩ :=
      @ne_heading 0x2B (0x20 :: device.deviceName) (by decide)
    have hplus : units "+ " <+: 0x2B :: 0x20 :: device.deviceName := by
      rw [hsigns.1]
      exact List.prefix_append _ _
    rw [ShownDevice.lines, List.cons_append, List.cons_append, List.nil_append] at hfound ⊢
    rw [readParagraph, if_neg hbracket, if_neg hdevices, if_neg haccessories,
      if_neg (List.cons_ne_nil _ _), if_pos hplus, hfound]
    rfl
  · have hfound := hread 0x2D
    obtain ⟨hbracket, hdevices, haccessories⟩ :=
      @ne_heading 0x2D (0x20 :: device.deviceName) (by decide)
    have hplus : ¬ units "+ " <+: 0x2D :: 0x20 :: device.deviceName := by
      rw [hsigns.1]
      exact fun hprefix => absurd (List.cons_prefix_cons.1 hprefix).1 (by decide)
    rw [ShownDevice.lines, List.cons_append, List.cons_append, List.nil_append] at hfound ⊢
    rw [readParagraph, if_neg hbracket, if_neg hdevices, if_neg haccessories,
      if_neg (List.cons_ne_nil _ _), if_neg hplus, hfound]
    rfl

/-- The paragraphs of an event are read. -/
theorem readAll_pieceLines (event : Event) :
    readAll readParagraph (pieceLines event) = some (records event).reverse := by
  cases event with
  | onCreate mService usbReceiver =>
    have hservice : readParagraph [units "usb = " ++ mService] =
        some [.line (units "usb = " ++ mService)] := readParagraph_line (by decide)
    have hreceiver : readParagraph [units "usb broadcast receiver = " ++ usbReceiver] =
        some [.line (units "usb broadcast receiver = " ++ usbReceiver)] :=
      readParagraph_line (by decide)
    have hstart : readParagraph [units " - - - Starting fwupd_usb_poc client - - - "] =
        some [.line (units " - - - Starting fwupd_usb_poc client - - - ")] :=
      readParagraph_line (by decide)
    simp [pieceLines, messages, records, readAll, hservice, hreceiver, hstart]
  | onDestroy =>
    have hstop : readParagraph [units " - - - Stopping fwupd_usb_poc client - - - "] =
        some [.line (units " - - - Stopping fwupd_usb_poc client - - - ")] :=
      readParagraph_line (by decide)
    simp [pieceLines, messages, records, readAll, hstop]
  | onReceive action device =>
    cases device with
    | none => cases action <;> rfl
    | some device =>
      obtain ⟨hattached, hdetached⟩ := readParagraph_device device.shown
      cases action with
      | usbDeviceAttached => simp [pieceLines, records, readAll, hattached]
      | usbDeviceDetached => simp [pieceLines, records, readAll, hdetached]
      | other => rfl
  | getDeviceList devices =>
    have hlength : (units "  ").length = 2 := rfl
    have hlines := readDevices_lines hlength ((devices.getD []).map UsbDevice.shown)
    rw [List.flatMap_map] at hlines
    rw [pieceLines, readAll, readParagraph, if_neg (by decide), if_pos rfl, hlines]
    rfl
  | getAccessoryList accessories =>
    have hdrop : ((accessories.getD []).map (units "  " ++ ·)).map (List.drop 2) =
        accessories.getD [] := by
      rw [List.map_map]
      exact (List.map_congr_left fun accessory _ => rfl).trans (List.map_id _)
    rw [pieceLines, readAll, readParagraph, if_neg (by decide), if_neg (by decide), if_pos rfl,
      hdrop]
    rfl

/-- **From a log of the activity's messages, whatever it has reacted to, one can read which devices
were attached, detached and listed, in which order, with their names and identifiers, if the names
of the devices and the texts of the other objects are lines.** -/
theorem readLog_logOf_messages {events : List Event} (h : ∀ event ∈ events, event.Readable) :
    readLog (logOf (events.flatMap messages)) = some (events.flatMap records).reverse := by
  rw [readLog, logOf_flatMap, List.flatMap_congr fun event _ => messages_pieces event]
  exact readAll_events fun event hevent =>
    readAs_of_paragraphs (h event hevent).paragraphs (readAll_pieceLines event)

/-- A keyboard is listed and detached. -/
theorem readLog_logOf_messages_keyboard :
    let keyboard : UsbDevice :=
      ⟨units "/dev/bus/usb/001/002", 0x46D, 0xC31C, some (units "Logi"), none⟩
    readLog (logOf ([.getDeviceList (some [keyboard]),
        .onReceive .usbDeviceDetached (some keyboard)].flatMap messages)) =
      some [.detached keyboard.shown, .devices [keyboard.shown]] := by
  intro keyboard
  have hkeyboard : keyboard.shown.Readable := ⟨by decide, by decide, by decide⟩
  refine readLog_logOf_messages (List.forall_mem_cons.2 ⟨?_, List.forall_mem_singleton.2 ?_⟩)
  · exact List.forall_mem_singleton.2 hkeyboard
  · rintro _ ⟨⟩
    exact hkeyboard

end FwupdPoc.UsbActivity
