import DirectoryBrowser.Backend.Memory
import DirectoryBrowser.Breadcrumb
import DirectoryBrowser.CommandLine.Run
import DirectoryBrowser.Disk.Backend
import DirectoryBrowser.Entry
import DirectoryBrowser.Failure
import DirectoryBrowser.Ftp.Client
import DirectoryBrowser.Http.Client
import DirectoryBrowser.Location
import DirectoryBrowser.Main
import DirectoryBrowser.Navigation.Rehearsal
import DirectoryBrowser.Navigation.StateFile
import DirectoryBrowser.Operation.Action
import DirectoryBrowser.Operation.Crew
import DirectoryBrowser.Operation.Delete
import DirectoryBrowser.Operation.Generate
import DirectoryBrowser.Operation.Handle
import DirectoryBrowser.Operation.Workbench
import DirectoryBrowser.Proofs.Backend.Climbing
import DirectoryBrowser.Proofs.Backend.FileTrees
import DirectoryBrowser.Proofs.Backend.Listings
import DirectoryBrowser.Proofs.Backend.Navigability
import DirectoryBrowser.Proofs.Backend.Observing
import DirectoryBrowser.Proofs.Backend.Representing
import DirectoryBrowser.Proofs.Backend.TreeCalls
import DirectoryBrowser.Proofs.CommandLine.Directories
import DirectoryBrowser.Proofs.CommandLine.Listing
import DirectoryBrowser.Proofs.CommandLine.Removing
import DirectoryBrowser.Proofs.Components
import DirectoryBrowser.Proofs.Containment
import DirectoryBrowser.Proofs.Ftp.Endpoints
import DirectoryBrowser.Proofs.Ftp.Faults
import DirectoryBrowser.Proofs.Ftp.Locations
import DirectoryBrowser.Proofs.Ftp.Rows
import DirectoryBrowser.Proofs.Gregorian
import DirectoryBrowser.Proofs.Http.Entering
import DirectoryBrowser.Proofs.Http.Extracting
import DirectoryBrowser.Proofs.Http.ListingUrl
import DirectoryBrowser.Proofs.Names
import DirectoryBrowser.Proofs.Navigation.Addressing
import DirectoryBrowser.Proofs.Navigation.Announcing
import DirectoryBrowser.Proofs.Navigation.Answers
import DirectoryBrowser.Proofs.Navigation.Attending
import DirectoryBrowser.Proofs.Navigation.Badges
import DirectoryBrowser.Proofs.Navigation.Calm
import DirectoryBrowser.Proofs.Navigation.Cancelling
import DirectoryBrowser.Proofs.Navigation.CanonicalOrder
import DirectoryBrowser.Proofs.Navigation.Confinement
import DirectoryBrowser.Proofs.Navigation.Counts
import DirectoryBrowser.Proofs.Navigation.Destinations
import DirectoryBrowser.Proofs.Navigation.Draining
import DirectoryBrowser.Proofs.Navigation.Freshness
import DirectoryBrowser.Proofs.Navigation.Gathering
import DirectoryBrowser.Proofs.Navigation.Idleness
import DirectoryBrowser.Proofs.Navigation.Interleaving
import DirectoryBrowser.Proofs.Navigation.LatestWins
import DirectoryBrowser.Proofs.Navigation.Listening
import DirectoryBrowser.Proofs.Navigation.Moves
import DirectoryBrowser.Proofs.Navigation.Replaying
import DirectoryBrowser.Proofs.Navigation.Requests
import DirectoryBrowser.Proofs.Navigation.Responses
import DirectoryBrowser.Proofs.Navigation.RoundTrip
import DirectoryBrowser.Proofs.Navigation.SavedLocation
import DirectoryBrowser.Proofs.Navigation.Settling
import DirectoryBrowser.Proofs.Navigation.Telling
import DirectoryBrowser.Proofs.Navigation.Trails
import DirectoryBrowser.Proofs.Navigation.Turns
import DirectoryBrowser.Proofs.Navigation.Unprompted
import DirectoryBrowser.Proofs.Navigation.WaitingBadges
import DirectoryBrowser.Proofs.Operation.Accounting
import DirectoryBrowser.Proofs.Operation.Asking
import DirectoryBrowser.Proofs.Operation.Balancing
import DirectoryBrowser.Proofs.Operation.Deleting
import DirectoryBrowser.Proofs.Operation.Finishing
import DirectoryBrowser.Proofs.Operation.Lasting
import DirectoryBrowser.Proofs.Operation.Limits
import DirectoryBrowser.Proofs.Operation.Naming
import DirectoryBrowser.Proofs.Operation.Pruning
import DirectoryBrowser.Proofs.Operation.Recording
import DirectoryBrowser.Proofs.Operation.SoleWorker
import DirectoryBrowser.Proofs.Operation.Walk
import DirectoryBrowser.Proofs.Paths
import DirectoryBrowser.Proofs.RelativePaths
import DirectoryBrowser.Proofs.Status.Badges
import DirectoryBrowser.Proofs.Status.Ledger
import DirectoryBrowser.Proofs.Status.Printouts
import DirectoryBrowser.Proofs.Status.Tickets
import DirectoryBrowser.Settings
import DirectoryBrowser.SettingsFile
import DirectoryBrowser.Status.Cache
import DirectoryBrowser.Status.Git
import DirectoryBrowser.Status.Porcelain
import DirectoryBrowser.Status.Workers
import DirectoryBrowser.Text.Percent
import DirectoryBrowser.Url.Access
