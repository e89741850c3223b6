import Lime.Bytes
import Lime.X3DH.PreKey
import Lime.X3DH.PeerBundle
import Lime.Orchestrator.Session
import Lime.Orchestrator.Decrypt
import Lime.Orchestrator.Recipients
import Lime.Orchestrator.Pipeline
import Lime.Orchestrator.SingleFetch
import Lime.Orchestrator.QueueDrain
import Lime.Orchestrator.Factory
import Lime.Orchestrator.Failure
import Lime.Orchestrator.Accounting
import Lime.Orchestrator.Progress
