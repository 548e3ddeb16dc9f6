import ClassForge.Command.Files
import ClassForge.Device.Heap.Copy
import ClassForge.Device.Heap.Sync
import ClassForge.Main
import ClassForge.Proofs.Class.Layout
import ClassForge.Proofs.Module.Provision
import ClassForge.Proofs.Module.Startup
import ClassForge.Proofs.Class.Cycle
import ClassForge.Proofs.Module.Superclass
import ClassForge.Proofs.Class.EntryPoint
import ClassForge.Proofs.Module.Prototype
import ClassForge.Proofs.Device.Copy
import ClassForge.Proofs.Device.Depth
import ClassForge.Proofs.Device.Merge
import ClassForge.Proofs.Device.Sync
import ClassForge.Proofs.Device.RoundTrip
import ClassForge.Proofs.Device.Interrupted
import ClassForge.Proofs.Device.Expansion
import ClassForge.Proofs.Device.Access
import ClassForge.Proofs.Device.SyncAction
import ClassForge.Proofs.Device.MendAction
import ClassForge.Proofs.Module.Owners
import ClassForge.Proofs.Session.Attempt
import ClassForge.Proofs.Module.Clash
import ClassForge.Proofs.Session.EntryName
import ClassForge.Proofs.Session.Includes
import ClassForge.Proofs.Module.Rearranged
import ClassForge.Proofs.Module.Calls
import ClassForge.Proofs.Module.Contents
import ClassForge.Proofs.Module.Files
import ClassForge.Proofs.Module.FileScope
import ClassForge.Proofs.Module.Storage
import ClassForge.Proofs.Module.Passed
import ClassForge.Proofs.Module.DeviceTable
import ClassForge.Proofs.Module.DeviceSymbols
import ClassForge.Proofs.Device.Frame
import ClassForge.Proofs.C.Canonical
import ClassForge.Proofs.Session.Guard
import ClassForge.Proofs.Descriptor.Form
import ClassForge.Proofs.Json.Members
import ClassForge.Proofs.Descriptor.Verdict
import ClassForge.Proofs.Device.Handle
import ClassForge.Proofs.Device.Crossing
import ClassForge.Proofs.Device.Termination
import ClassForge.Proofs.Class.Resolvable
import ClassForge.Proofs.Device.Flattening
import ClassForge.Proofs.Device.ArrayFields
import ClassForge.Proofs.Module.Embedding
import ClassForge.Proofs.History
import ClassForge.Proofs.Class.Request
import ClassForge.Proofs.Module.Registration
import ClassForge.Proofs.C.Grammar
import ClassForge.Proofs.C.TypeKey
import ClassForge.Proofs.C.SlotType
import ClassForge.Proofs.C.Change
import ClassForge.Proofs.Descriptor.FirstFault
import ClassForge.Proofs.Text.Indent
import ClassForge.Proofs.Module.Nesting
import ClassForge.Proofs.Class.Capture
