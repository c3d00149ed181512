import Xaios.MutableFs.Overlap
import Xaios.Net.Init
import Xaios.Net.Cells
import Xaios.Net.Accept
import Xaios.Net.Outbound
import Xaios.Net.Translation
import Xaios.Net.Isolation
import Xaios.Net.Fragment
import Xaios.Net.Routing
import Xaios.Mm.Conservation
import Xaios.Sched.Tasks
import Xaios.Ssh.Segments
import Xaios.Ssh.Transcript
import Xaios.Crypto.Hmac
import Xaios.Dev.VirtioNetRx
import Xaios.Runtime.PagedKvCache
import Xaios.Runtime.AiKernels
import Xaios.MutableFs.Fsck
import Xaios.MutableFs.Descriptors
import Xaios.Runtime.Staging
import Xaios.Net.Icmp
import Xaios.Net.Neighbors
import Xaios.Net.Insertion
import Xaios.Mm.Arena
import Xaios.Runtime.Supervisor
import Xaios.Runtime.RateLimit
import Xaios.Mm.ElfBounds
import Xaios.Runtime.Signatures
import Xaios.Runtime.Sandbox
import Xaios.Runtime.KlogRing
