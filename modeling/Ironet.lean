import Ironet.Cell.Parts
import Ironet.Classifier
import Ironet.Control.Snapshot
import Ironet.Daemon.Supervise
import Ironet.Dataplane.Preemption
import Ironet.Dataplane.Repair
import Ironet.Dataplane.Cover
import Ironet.Fec.Panic
import Ironet.JsonLine
import Ironet.Mesh.Convergence
import Ironet.Mesh.Noticed
import Ironet.Policy.Containment
import Ironet.Policy.Filtered
import Ironet.Product.Enrollment
import Ironet.Reassembly.Completion
import Ironet.Routing.Draining
import Ironet.Runtime.Pmtu
import Ironet.Runtime.RouteQuality
import Ironet.Scheduler.Deadlines
import Ironet.Scheduler.Refusal
