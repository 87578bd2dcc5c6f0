import Kodansu.Record.Combine
import Kodansu.Record.Sequence
import Kodansu.Segment.FooterRead
import Kodansu.Index.Audit
import Kodansu.Index.Domination
import Kodansu.Index.SubstreamMap
import Kodansu.Fetch.Budget
import Kodansu.Compaction.Coverage
import Kodansu.Compaction.Union
import Kodansu.Transaction.Resolution
import Kodansu.Leaseless.Sequences
import Kodansu.Leaseless.Refreshed
import Kodansu.Coalesce.FlushQueue
import Kodansu.Group.Balanced
import Kodansu.Group.Targets
import Kodansu.Group.Revocation
import Kodansu.Coordinator.Members
import Kodansu.Lease.Exclusive
import Kodansu.OptiCon.Linear
import Kodansu.Cluster.OpenReads
import Kodansu.Cluster.Aborted
import Kodansu.Cluster.Flushes
import Kodansu.Service.Pipelined
import Kodansu.Auth.Principal
import Kodansu.Retention.Thresholds
