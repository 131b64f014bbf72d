import FwupdPoc.Lib.Codec
import FwupdPoc.Lib.Cursor
import FwupdPoc.Lib.Utf16
import FwupdPoc.Lib.Hexadecimal
import FwupdPoc.Lib.KotlinText
import FwupdPoc.Lib.Margin
import FwupdPoc.Lib.Blocks
import FwupdPoc.Lib.KeyedStore
import FwupdPoc.Lib.IndexedLoop
import FwupdPoc.Lib.FailFast
import FwupdPoc.Lib.GrowingLoop
import FwupdPoc.Lib.Fuel
import FwupdPoc.Lib.Stutter
import FwupdPoc.GLib.Variant
import FwupdPoc.Ndk.Bundle
import FwupdPoc.Ndk.Parcel
import FwupdPoc.Ndk.Reference
import FwupdPoc.VardictToBundle
import FwupdPoc.VardictToBundle.Spec
import FwupdPoc.VardictToBundle.Values
import FwupdPoc.VardictToBundle.Shape
import FwupdPoc.VardictToBundle.Order
import FwupdPoc.MainActivity.AppService
import FwupdPoc.ParcelWriter
import FwupdPoc.ParcelWriter.Refinement
import FwupdPoc.ParcelWriter.Calls
import FwupdPoc.ParcelWriter.Errors
import FwupdPoc.ParcelWriter.Reader
import FwupdPoc.ParcelWriter.RoundTrip
import FwupdPoc.MainService
import FwupdPoc.MainActivity
import FwupdPoc.MainActivity.Intact
import FwupdPoc.Daemon.Payloads
import FwupdPoc.Daemon
import FwupdPoc.Daemon.Rounds
import FwupdPoc.Daemon.Runs
import FwupdPoc.Daemon.Course
import FwupdPoc.Daemon.Reentrancy
import FwupdPoc.Daemon.Status
import FwupdPoc.SimpleFd
import FwupdPoc.ServiceList
import FwupdPoc.Aidl
import FwupdPoc.Aidl.Versions
import FwupdPoc.Daemon.Parcelables
import FwupdPoc.Daemon.Arrivals
import FwupdPoc.Daemon.Endings
import FwupdPoc.Lib.SharedCell
import FwupdPoc.MainActivity.Log
import FwupdPoc.MainActivity.PocListener
import FwupdPoc.MainActivity.Readable
import FwupdPoc.MainService.Calls
import FwupdPoc.Daemon.Delivery
import FwupdPoc.Agreement
import FwupdPoc.UsbActivity
import FwupdPoc.Daemon.Structs
import FwupdPoc.MainActivity.Arrays
import FwupdPoc.MainActivity.Messages
import FwupdPoc.SharedLog
