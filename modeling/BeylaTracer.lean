import BeylaTracer.MonadTools
import BeylaTracer.World
import BeylaTracer.GoTracer
import BeylaTracer.Instrumenter
import BeylaTracer.ProcessTracer
import BeylaTracer.BpfDebug
import BeylaTracer.Proofs.Primitives
import BeylaTracer.Proofs.Attach
import BeylaTracer.Proofs.Load
import BeylaTracer.Proofs.Steps
import BeylaTracer.Proofs.Unlink
import BeylaTracer.Proofs.Ownership
import BeylaTracer.Proofs.Teardown
import BeylaTracer.Proofs.ContextPropagation
import BeylaTracer.Proofs.Lifetime
import BeylaTracer.Proofs.Success
import BeylaTracer.Proofs.GoTracer
import BeylaTracer.Proofs.Close
