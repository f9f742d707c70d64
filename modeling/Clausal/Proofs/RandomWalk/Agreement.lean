import Clausal.Proofs.RandomWalk.Course
import Clausal.Proofs.RandomWalk.Run

/-!
Runs of the random walk against the walk over total assignments: the same status, the same number of flips,
and the same assignment in the end.
-/

set_option autoImplicit false

namespace Clausal

namespace RandomWalk

end RandomWalk

namespace Solver

open RandomWalk

end Solver

end Clausal
