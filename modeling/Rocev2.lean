import Rocev2.Core.QpnTable.FiniteMap
import Rocev2.Core.ReadyLinks
import Rocev2.Core.RingBuffer
import Rocev2.Core.Shard
import Rocev2.Core.Unbounded
import Rocev2.Memory.KeySequence
import Rocev2.Memory.KeyTable.FiniteMap
import Rocev2.Wire.Codec.Bounds
import Rocev2.Io.DescriptorRing
import Rocev2.Rc.Redelivery
import Rocev2.Rc.Retransmission
import Rocev2.Rc.RnrDelay
import Rocev2.Rc.Fairness
import Rocev2.Rc.QpTable
import Rocev2.Rc.AckTimeout
import Rocev2.Rc.Termination
import Rocev2.Rc.Restart
import Rocev2.Rc.BatchPosting
import Rocev2.Rc.MessageReassembly
import Rocev2.Rc.Segmentation
import Rocev2.Rc.Connection
import Rocev2.Rc.Interop
