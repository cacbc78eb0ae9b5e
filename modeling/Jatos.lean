import Jatos.Foundation.Ata
import Jatos.Foundation.Bitmap
import Jatos.Foundation.Cyclic
import Jatos.Foundation.Descriptors
import Jatos.Foundation.Linked
import Jatos.Foundation.Memory
import Jatos.Foundation.Packed
import Jatos.Foundation.Page
import Jatos.Foundation.Pc
import Jatos.Foundation.Ports
import Jatos.Foundation.Redirect
import Jatos.Foundation.Rtc
import Jatos.Foundation.Runs
import Jatos.Foundation.Search
import Jatos.Foundation.Single
import Jatos.Foundation.Slot
import Jatos.Foundation.Walk
import Jatos.Foundation.X86
import Jatos.Stdlib.Strings
import Jatos.Device.Cmos
import Jatos.Device.Disk
import Jatos.Device.Image
import Jatos.Device.Requests
import Jatos.Fat32.Agree
import Jatos.Fat32.Allocation
import Jatos.Fat32.Ascent
import Jatos.Fat32.Atomicity
import Jatos.Fat32.Boot
import Jatos.Fat32.Change
import Jatos.Fat32.Damage
import Jatos.Fat32.Deletion
import Jatos.Fat32.Driver
import Jatos.Fat32.Entry
import Jatos.Fat32.Exhaustion
import Jatos.Fat32.Extension
import Jatos.Fat32.Fat
import Jatos.Fat32.Fetch
import Jatos.Fat32.Finality
import Jatos.Fat32.Inserter
import Jatos.Fat32.Layout
import Jatos.Fat32.Limit
import Jatos.Fat32.Lookup
import Jatos.Fat32.Names
import Jatos.Fat32.Parent
import Jatos.Fat32.Refinement
import Jatos.Fat32.Remount
import Jatos.Fat32.Reserved
import Jatos.Fat32.Service
import Jatos.Fat32.State
import Jatos.Fat32.Uniqueness
import Jatos.Fat32.Volume
import Jatos.Fat32.WalkSpec
import Jatos.Fat32.WriteLoop
import Jatos.Fat32.WriteSpec
import Jatos.Process.Active
import Jatos.Process.Conservation
import Jatos.Process.Control
import Jatos.Process.Destroy
import Jatos.Process.Directories
import Jatos.Process.Dispatch
import Jatos.Process.Fairness
import Jatos.Process.FrameManager
import Jatos.Process.Frames
import Jatos.Process.Image
import Jatos.Process.Invariant
import Jatos.Process.Isolation
import Jatos.Process.Ledger
import Jatos.Process.Loading
import Jatos.Process.Paging
import Jatos.Process.Preemption
import Jatos.Process.Scheduled
import Jatos.Process.Scheduler
import Jatos.Process.Startup
import Jatos.Process.Table
import Jatos.Interrupt.Code
import Jatos.Interrupt.Delivery
import Jatos.Interrupt.Resume
import Jatos.Interrupt.Tables
import Jatos.Shell.Clock
import Jatos.Shell.Copy
import Jatos.Shell.Desk
import Jatos.Shell.Directory
import Jatos.Shell.Editor
import Jatos.Shell.Find
import Jatos.Shell.Found
import Jatos.Shell.Hierarchy
import Jatos.Shell.Listing
import Jatos.Shell.Move
import Jatos.Shell.Mv
import Jatos.Shell.Orderly
import Jatos.Shell.Processes
import Jatos.Shell.Remove
import Jatos.Shell.Rename
import Jatos.Shell.Script
import Jatos.Shell.Session
import Jatos.Shell.Shadow
import Jatos.Shell.Terminal
import Jatos.Shell.Tree
import Jatos.Shell.Typing
import Jatos.Screen.Buffer
import Jatos.Screen.Console
import Jatos.Screen.Corner
import Jatos.Screen.Framebuffer
import Jatos.Screen.Keyboard
import Jatos.Screen.Modifiers
import Jatos.Screen.Strokes
import Jatos.Screen.Transcript
