import FlowStudio.Main
import FlowStudio.Proofs.Studio.Channels
import FlowStudio.Proofs.Command.Pull
import FlowStudio.Proofs.Layout.Isolation
import FlowStudio.Proofs.Layout.Laminar
import FlowStudio.Proofs.Session.Explorer
import FlowStudio.Proofs.Session.LatestRequest
import FlowStudio.Proofs.Session.OpenFile
import FlowStudio.Proofs.Studio.HostedTool
import FlowStudio.Proofs.Studio.Outstanding
import FlowStudio.Proofs.Studio.Reports
import FlowStudio.Proofs.Session.OpenWorkspace
import FlowStudio.Proofs.Session.Analysis
import FlowStudio.Proofs.Studio.StoredFlow
import FlowStudio.Proofs.Command.Creating
import FlowStudio.Proofs.Command.Outcome
import FlowStudio.Proofs.FileTree.Identity
import FlowStudio.Proofs.FileTree.Refusals
import FlowStudio.Proofs.FileTree.Spellings
import FlowStudio.Proofs.Text.ByteOrder
import FlowStudio.Proofs.FileTree.Listing
import FlowStudio.Proofs.Layout.FeedbackArcs
import FlowStudio.Proofs.Layout.LongestPaths
import FlowStudio.Proofs.Flow.RoundTrip
import FlowStudio.Proofs.Layout.Circles
import FlowStudio.Proofs.Layout.Separation
import FlowStudio.Proofs.Layout.Extent
import FlowStudio.Proofs.Layout.InPlace
import FlowStudio.Proofs.Layout.Sweep
import FlowStudio.Proofs.Session.Loaded
import FlowStudio.Proofs.Studio.Pipeline
import FlowStudio.Proofs.Session.Failures
import FlowStudio.Proofs.FileTree.Rows
import FlowStudio.FileTree.RowStack
import FlowStudio.Proofs.FileTree.RowStack
import FlowStudio.Proofs.FileTree.Unfolding
import FlowStudio.Proofs.Session.Toggle
import FlowStudio.Proofs.Workspace.Fetch
import FlowStudio.Proofs.Settings.PartialFiles
import FlowStudio.Proofs.Workspace.Spellings
import FlowStudio.Proofs.Session.Depth
