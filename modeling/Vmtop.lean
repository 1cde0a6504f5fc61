import Vmtop.Lib.CText
import Vmtop.Lib.Scan
import Vmtop.Lib.Numerals
import Vmtop.Lib.Printf
import Vmtop.Lib.CArray
import Vmtop.Lib.Reordered
import Vmtop.Lib.Run
import Vmtop.Lib.Sampled
import Vmtop.Lib.Ledger
import Vmtop.Lib.Heap
import Vmtop.Lib.Window
import Vmtop.Type
import Vmtop.Utils
import Vmtop.VcpuStat
import Vmtop.Proc
import Vmtop.Domain
import Vmtop.Resctrl
import Vmtop.Bandwidth
import Vmtop.Frame
import Vmtop.Handles
import Vmtop.Memory
import Vmtop.Field
import Vmtop.Screen
import Vmtop.Display
import Vmtop.Options
import Vmtop.Refresh.Columns
import Vmtop.Refresh.Fresh
import Vmtop.Refresh.Host
import Vmtop.Refresh.Deltas
import Vmtop.Refresh.Rows
import Vmtop.Refresh.Threads
import Vmtop.Refresh.Entries
import Vmtop.Refresh.Children
import Vmtop.Refresh.Listings
import Vmtop.Refresh.Order
import Vmtop.Refresh.Waits
import Vmtop.Refresh.Buffers
import Vmtop.Refresh.Malformed
import Vmtop.Refresh.Walked
import Vmtop.Refresh.Stale
import Vmtop.Refresh.Cgroups
import Vmtop.Refresh.Table
import Vmtop.Refresh.Accepted
import Vmtop.Refresh.Decode
import Vmtop.Refresh.Handles
import Vmtop.Refresh.Arrays
import Vmtop.Refresh.Memory
import Vmtop.Refresh.Machines
import Vmtop.Sampling.Subscripts
import Vmtop.Sampling.Frames
import Vmtop.Sampling.Groups
import Vmtop.Sampling.Failures
import Vmtop.Sampling.Readings
import Vmtop.Sampling.Means
import Vmtop.Sampling.Numbering
import Vmtop.Sampling.Handles
import Vmtop.Sampling.Memory
import Vmtop.Sampling.Figures
import Vmtop.History.Records
import Vmtop.History.Reports
import Vmtop.History.Baselines
import Vmtop.History.Identity
import Vmtop.History.Order
import Vmtop.History.Hypervisor
import Vmtop.History.Handles
import Vmtop.History.Memory
import Vmtop.History.Monitored
import Vmtop.History.Past
import Vmtop.History.Machines
import Vmtop.Terminal.Turns
import Vmtop.Terminal.Nodes
import Vmtop.Terminal.Scroll
import Vmtop.Terminal.TextMode
import Vmtop.Terminal.Machines
import Vmtop.Terminal.Filter
import Vmtop.Terminal.Lines
import Vmtop.Terminal.Pacing
import Vmtop.Terminal.Percentages
import Vmtop.Terminal.Interval
import Vmtop.Terminal.Paging
import Vmtop.Terminal.Fields
import Vmtop.Terminal.Cells
import Vmtop.Terminal.Rows
import Vmtop.Terminal.Display
import Vmtop.Terminal.FilterPage
import Vmtop.Terminal.CommandLine
import Vmtop.Terminal.Modes
import Vmtop.Terminal.Ends
import Vmtop.Terminal.Safety
