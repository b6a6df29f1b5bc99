import Correlator.Scenario.Play
import Correlator.Scenario.WorkLog
import Correlator.Wire.Protocol
import Correlator.Wire.Fault
import Correlator.Wire.Suspension
import Correlator.Wire.Call
import Correlator.Json.Printer
import Correlator.Proofs.Reuse
import Correlator.Proofs.Answers
import Correlator.Proofs.Containment
import Correlator.Proofs.Legs
import Correlator.Proofs.Sweeping
import Correlator.Proofs.Discard
import Correlator.Proofs.Counting
import Correlator.Proofs.Gate
import Correlator.Proofs.Overdue
import Correlator.Proofs.Overlap
import Correlator.Proofs.Limit
import Correlator.Proofs.Commuting
import Correlator.Proofs.Correlation
import Correlator.Proofs.Stacking
import Correlator.Proofs.Called
import Correlator.Proofs.Routing
import Correlator.Proofs.Incidents
import Correlator.Proofs.Resuming
import Correlator.Proofs.Consequence
import Correlator.Proofs.Unwinding
import Correlator.Proofs.Replication
import Correlator.Proofs.Sending
import Correlator.Proofs.Accounting
import Correlator.Proofs.Rejection
import Correlator.Proofs.Purging
import Correlator.Proofs.Restoring
import Correlator.Proofs.Presenting
