import Curator.Proofs.Operation.Refinement
/-!
What an invocation does with the data that comes with it before anything runs. All of it is looked at
first: with something wrong for one source, the invocation is refused and leaves no trace; otherwise
each table that was supplied is in a slot of its own when the work begins.
-/

set_option autoImplicit false

namespace Curator

end Curator
