import Sourcegraph.Repos.Types
import Sourcegraph.Repos.Store
import Sourcegraph.Repos.Sync
import Sourcegraph.Repos.Uniqueness
import Sourcegraph.Repos.SyncSpec
import Sourcegraph.Repos.SyncOutcome
import Sourcegraph.Repos.Interval
import Sourcegraph.Repos.ExternalServiceSync
import Sourcegraph.Repos.PassSchedule
import Sourcegraph.Repos.SecondPass
import Sourcegraph.Repos.RepoLimits
import Sourcegraph.Repos.LazySync
import Sourcegraph.Repos.SyncGroup
import Sourcegraph.Repos.Notifications
import Sourcegraph.Codeintel.Dependencies
import Sourcegraph.Symbols.GitDiff
import Sourcegraph.Bitmask.Grams
import Sourcegraph.Bitmask.RepoIndex
import Sourcegraph.Lang.Entries
import Sourcegraph.Migration.Revert
import Sourcegraph.Web.CoolCodeIntel
import Sourcegraph.Search.Sexp
import Sourcegraph.Search.Mermaid
import Sourcegraph.Repos.PassPartition
import Sourcegraph.Codeintel.DependencySync
import Sourcegraph.Bitmask.Grep
import Sourcegraph.Repos.Relay
