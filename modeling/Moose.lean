import Moose.Computation
import Moose.Choreography.Grpc
import Moose.Choreography.Interleaving
import Moose.Execution.Session
import Moose.Execution.Concurrent
import Moose.Execution.Grounding
import Moose.Execution.Executor
import Moose.Execution.Meaning
import Moose.Host.Tensor
import Moose.Host.Broadcast
import Moose.Host.Ops
import Moose.Host.Comparison
import Moose.Host.Decomposition
import Moose.Host.Ring
import Moose.Host.Movement
import Moose.Floatingpoint.Ops
